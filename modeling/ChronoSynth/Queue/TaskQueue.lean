import Mathlib.Algebra.Ring.Int.Defs
import ChronoSynth.Lib.Interleave
import ChronoSynth.Lib.Table

/-!
# The task queue

The table `tasks`, its commands, the calls of a `TaskQueue` and what a `TaskWorker` does with a task it
has dequeued.

* Every command is one statement; `dequeue` is a transaction. The database has its own clock, which stamps
  the claims and by which the reaper judges; a worker's clock is another one. Both are in the oracle `Env`,
  with the outcome of a handler and the choice among equals.
* A task's identifier is a fresh random one for each attempt to enqueue; here the attempts are numbered.
* A reporting command does not tell the database who reports; here it carries the worker all the same, for
  the history to note.
* The events and the log lines of a worker are left out.
-/

namespace ChronoSynth.Queue

inductive TaskStatus
  | pending | running | completed | failed
  deriving DecidableEq, Repr

abbrev TaskId := ℕ

/-- A row of `tasks`; without its priority it is also the record a worker gets. -/
structure TaskRow where
  id : TaskId
  tenantId : String
  type : String
  payload : String
  status : TaskStatus
  result : Option String
  error : Option String
  retryCount : ℕ
  maxRetries : ℤ
  createdAt : ℤ
  updatedAt : ℤ
  availableAt : ℤ
  priority : ℤ
  claimedBy : Option String
  claimedAt : Option ℤ
  deriving DecidableEq, Repr

structure TaskDb where
  /-- How many identifiers have been drawn. -/
  issued : ℕ
  tasks : List TaskRow
  deriving DecidableEq, Repr

/-- No task has been enqueued yet. -/
def TaskDb.empty : TaskDb := ⟨0, []⟩

/-- What is open about a step: the worker's clock, the database's, the choice among equals, and what a
handler comes to. -/
structure Env where
  now : ℤ
  dbNow : ℤ
  tie : ℕ
  outcome : Except String String

/-- A moment at which both clocks agree and a handler returns. -/
def Env.at (now : ℤ) : Env := ⟨now, now, 0, .ok "null"⟩

/-! ## Commands -/

inductive TaskCmd
  | enqueue (tenantId type payload : String) (maxRetries now priority : ℤ) (maxPending : ℕ)
  | dequeue (workerId : String) (availableAt : ℤ)
  | complete (workerId : String) (taskId : TaskId) (result : String) (now : ℤ)
  | fail (workerId : String) (taskId : TaskId) (error : String) (now : ℤ)
  | reschedule (workerId : String) (taskId : TaskId) (retryCount : ℕ) (availableAt : ℤ) (error : String)
      (now : ℤ)
  | reapRetryable (staleAfterMs : ℤ)
  | reapExhausted (staleAfterMs : ℤ) (errorMessage : String)
  | deleteBatch (ids : List TaskId)
  deriving DecidableEq, Repr

structure TaskReply where
  rowsAffected : ℕ
  /-- The identifier drawn for an `enqueue`. -/
  taskId : TaskId
  /-- The row that `dequeue` has claimed. -/
  task : Option TaskRow
  deriving DecidableEq, Repr

namespace TaskRow

/-- Pending or running: what the limit of a tenant counts. -/
def Active (row : TaskRow) : Prop := row.status = .pending ∨ row.status = .running

def Finished (row : TaskRow) : Prop := row.status = .completed ∨ row.status = .failed

instance (row : TaskRow) : Decidable row.Active := inferInstanceAs (Decidable (_ ∨ _))

instance (row : TaskRow) : Decidable row.Finished := inferInstanceAs (Decidable (_ ∨ _))

/-- The claim, or else the last update, is longer ago than the threshold. -/
def Stale (row : TaskRow) (dbNow staleAfterMs : ℤ) : Prop :=
  row.status = .running ∧ (row.claimedAt.getD row.updatedAt) < dbNow - staleAfterMs

instance (row : TaskRow) (dbNow staleAfterMs : ℤ) : Decidable (row.Stale dbNow staleAfterMs) :=
  inferInstanceAs (Decidable (_ ∧ _))

/-! What the commands set. -/

def claimed (workerId : String) (dbNow : ℤ) (row : TaskRow) : TaskRow :=
  { row with status := .running, claimedBy := some workerId, claimedAt := some dbNow, updatedAt := dbNow }

def completed (result : String) (now : ℤ) (row : TaskRow) : TaskRow :=
  { row with status := .completed, result := some result, updatedAt := now }

def failed (error : String) (now : ℤ) (row : TaskRow) : TaskRow :=
  { row with status := .failed, error := some error, updatedAt := now }

def rescheduled (retryCount : ℕ) (availableAt : ℤ) (error : String) (now : ℤ) (row : TaskRow) : TaskRow :=
  { row with
    status := .pending, retryCount := retryCount, availableAt := availableAt, error := some error,
    updatedAt := now }

def requeued (dbNow : ℤ) (row : TaskRow) : TaskRow :=
  { row with
    status := .pending, claimedBy := none, claimedAt := none, availableAt := dbNow, updatedAt := dbNow,
    retryCount := row.retryCount + 1 }

def exhausted (errorMessage : String) (dbNow : ℤ) (row : TaskRow) : TaskRow :=
  { row with
    status := .failed, error := some errorMessage, claimedBy := none, claimedAt := none,
    updatedAt := dbNow }

end TaskRow

namespace TaskDb

variable (db : TaskDb)

/-- `SELECT … WHERE id = ?`. -/
def byId (id : TaskId) : Option TaskRow := db.tasks.find? fun row => row.id = id

/-- The pending and running tasks of a tenant. -/
def active (tenantId : String) : ℕ := db.tasks.countP fun row => row.tenantId = tenantId ∧ row.Active

def running (tenantId : String) : ℕ :=
  db.tasks.countP fun row => row.tenantId = tenantId ∧ row.status = .running

/-- `ORDER BY priority DESC, running_count ASC, created_at ASC`. -/
def Before (a b : TaskRow) : Prop :=
  b.priority < a.priority ∨ b.priority = a.priority ∧
    (db.running a.tenantId < db.running b.tenantId ∨ db.running a.tenantId = db.running b.tenantId ∧
      a.createdAt < b.createdAt)

instance (a b : TaskRow) : Decidable (db.Before a b) := inferInstanceAs (Decidable (_ ∨ _))

/-- The candidate of a `dequeue`; among equals `tie` decides. -/
def candidate (availableAt : ℤ) (tie : ℕ) : Option TaskRow :=
  let due := db.tasks.filter fun row => row.status = .pending ∧ row.availableAt ≤ availableAt
  Table.pick tie (due.filter fun row => ∀ other ∈ due, ¬ db.Before other row)

/-- `UPDATE tasks SET g WHERE p`. -/
def update (p : TaskRow → Prop) [DecidablePred p] (g : TaskRow → TaskRow) : TaskDb × TaskReply :=
  ({ db with tasks := Table.update p g db.tasks }, ⟨db.tasks.countP p, 0, none⟩)

/-- The row of `taskId` is claimed if it is pending, and read back. -/
def claim (workerId : String) (dbNow : ℤ) (taskId : TaskId) : TaskDb × TaskReply :=
  let claimed := db.update (fun row => row.id = taskId ∧ row.status = .pending)
    (.claimed workerId dbNow)
  if claimed.2.rowsAffected = 0 then claimed
  else (claimed.1, { claimed.2 with task := claimed.1.byId taskId })

end TaskDb

def exec (e : Env) (cmd : TaskCmd) (db : TaskDb) : TaskDb × TaskReply :=
  match cmd with
  | .enqueue tenantId type payload maxRetries now priority maxPending =>
    let drawn := { db with issued := db.issued + 1 }
    if maxPending = 0 ∨ db.active tenantId < maxPending then
      let row : TaskRow := {
        id := db.issued, tenantId, type, payload, status := .pending, result := none, error := none,
        retryCount := 0, maxRetries, createdAt := now, updatedAt := now, availableAt := now, priority,
        claimedBy := none, claimedAt := none }
      ({ drawn with tasks := db.tasks ++ [row] }, ⟨1, db.issued, none⟩)
    else (drawn, ⟨0, db.issued, none⟩)
  | .dequeue workerId availableAt =>
    match db.candidate availableAt e.tie with
    | none => (db, ⟨0, 0, none⟩)
    | some row => db.claim workerId e.dbNow row.id
  | .complete _ taskId result now => db.update (fun row => row.id = taskId) (.completed result now)
  | .fail _ taskId error now => db.update (fun row => row.id = taskId) (.failed error now)
  | .reschedule _ taskId retryCount availableAt error now =>
    db.update (fun row => row.id = taskId) (.rescheduled retryCount availableAt error now)
  | .reapRetryable staleAfterMs =>
    db.update (fun row => row.Stale e.dbNow staleAfterMs ∧ row.retryCount < row.maxRetries)
      (.requeued e.dbNow)
  | .reapExhausted staleAfterMs errorMessage =>
    db.update (fun row => row.Stale e.dbNow staleAfterMs ∧ row.maxRetries ≤ row.retryCount)
      (.exhausted errorMessage e.dbNow)
  | .deleteBatch ids =>
    ({ db with tasks := db.tasks.filter fun row => row.id ∉ ids },
      ⟨db.tasks.countP fun row => row.id ∈ ids, 0, none⟩)

/-! ### What a command makes of a row -/

namespace TaskDb

variable (e : Env) (cmd : TaskCmd) (db : TaskDb) (row : TaskRow)

/-- What becomes of a row, unless it is deleted. -/
def rewrite : Option TaskRow :=
  match cmd with
  | .enqueue .. => some row
  | .dequeue workerId availableAt =>
    if (db.candidate availableAt e.tie).map TaskRow.id = some row.id ∧ row.status = .pending then
      some (row.claimed workerId e.dbNow)
    else some row
  | .complete _ taskId result now => some (if row.id = taskId then row.completed result now else row)
  | .fail _ taskId error now => some (if row.id = taskId then row.failed error now else row)
  | .reschedule _ taskId retryCount availableAt error now =>
    some (if row.id = taskId then row.rescheduled retryCount availableAt error now else row)
  | .reapRetryable staleAfterMs =>
    some (if row.Stale e.dbNow staleAfterMs ∧ row.retryCount < row.maxRetries then row.requeued e.dbNow
      else row)
  | .reapExhausted staleAfterMs errorMessage =>
    some (if row.Stale e.dbNow staleAfterMs ∧ row.maxRetries ≤ row.retryCount then
      row.exhausted errorMessage e.dbNow else row)
  | .deleteBatch ids => if row.id ∈ ids then none else some row

/-- The rows that are new. -/
def inserted : List TaskRow :=
  match cmd with
  | .enqueue tenantId type payload maxRetries now priority maxPending =>
    if maxPending = 0 ∨ db.active tenantId < maxPending then
      [{ id := db.issued, tenantId, type, payload, status := .pending, result := none, error := none,
         retryCount := 0, maxRetries, createdAt := now, updatedAt := now, availableAt := now, priority,
         claimedBy := none, claimedAt := none }]
    else []
  | _ => []

variable {e cmd db row} {row' : TaskRow}

@[simp] theorem update_tasks {p : TaskRow → Prop} [DecidablePred p] {g : TaskRow → TaskRow} :
    (db.update p g).1.tasks = db.tasks.filterMap fun row => some (if p row then g row else row) := by
  rw [List.filterMap_eq_map']
  rfl

@[simp] theorem claim_tasks {workerId : String} {dbNow : ℤ} {taskId : TaskId} :
    (db.claim workerId dbNow taskId).1.tasks = db.tasks.filterMap fun row =>
      some (if row.id = taskId ∧ row.status = .pending then row.claimed workerId dbNow else row) := by
  rw [← update_tasks, claim]
  split <;> rfl

/-- **The table after a command**: every row rewritten or deleted, and what is new. -/
theorem exec_tasks :
    (exec e cmd db).1.tasks = db.tasks.filterMap (db.rewrite e cmd) ++ db.inserted cmd := by
  cases cmd with
  | enqueue tenantId type payload maxRetries now priority maxPending =>
    have hsame : db.tasks.filterMap (db.rewrite e (.enqueue tenantId type payload maxRetries now priority
        maxPending)) = db.tasks := List.filterMap_some
    rw [hsame]
    simp only [exec, inserted]
    split
    · rfl
    · rw [List.append_nil]
  | dequeue workerId availableAt =>
    simp only [exec, inserted, List.append_nil]
    cases hc : db.candidate availableAt e.tie with
    | none =>
      refine (List.filterMap_some.symm.trans ?_)
      exact List.filterMap_congr fun row _ => by simp [rewrite, hc]
    | some first =>
      rw [claim_tasks]
      refine List.filterMap_congr fun row _ => ?_
      simp only [rewrite, hc, Option.map_some, Option.some.injEq, eq_comm (a := first.id)]
      split <;> rfl
  | deleteBatch ids =>
    simp only [exec, inserted, List.append_nil]
    rw [← List.filterMap_eq_filter]
    refine List.filterMap_congr fun row _ => ?_
    by_cases hmem : row.id ∈ ids
    · simp [Option.guard, rewrite, hmem]
    · simp [Option.guard, rewrite, hmem]
  | _ =>
    simp only [exec, inserted, List.append_nil, update_tasks]
    rfl

end TaskDb

/-- What a command can do to a row it does not delete. -/
inductive TaskEffect (e : Env) : TaskCmd → TaskRow → TaskRow → Prop
  | same {cmd : TaskCmd} {row : TaskRow} : TaskEffect e cmd row row
  | claimed {workerId : String} {availableAt : ℤ} {row : TaskRow} (hpending : row.status = .pending) :
    TaskEffect e (.dequeue workerId availableAt) row (row.claimed workerId e.dbNow)
  | completed {workerId result : String} {now : ℤ} {row : TaskRow} :
    TaskEffect e (.complete workerId row.id result now) row (row.completed result now)
  | failed {workerId error : String} {now : ℤ} {row : TaskRow} :
    TaskEffect e (.fail workerId row.id error now) row (row.failed error now)
  | rescheduled {workerId error : String} {retryCount : ℕ} {availableAt now : ℤ} {row : TaskRow} :
    TaskEffect e (.reschedule workerId row.id retryCount availableAt error now) row
      (row.rescheduled retryCount availableAt error now)
  | requeued {staleAfterMs : ℤ} {row : TaskRow} (hstale : row.Stale e.dbNow staleAfterMs)
      (hretry : row.retryCount < row.maxRetries) :
    TaskEffect e (.reapRetryable staleAfterMs) row (row.requeued e.dbNow)
  | exhausted {staleAfterMs : ℤ} {errorMessage : String} {row : TaskRow}
      (hstale : row.Stale e.dbNow staleAfterMs) :
    TaskEffect e (.reapExhausted staleAfterMs errorMessage) row (row.exhausted errorMessage e.dbNow)

section
variable {e : Env} {cmd : TaskCmd} {db : TaskDb} {row row' : TaskRow}

theorem rewrite_effect (h : db.rewrite e cmd row = some row') : TaskEffect e cmd row row' := by
  cases cmd with
  | enqueue =>
    obtain rfl := Option.some.inj h
    exact .same
  | dequeue =>
    simp only [TaskDb.rewrite] at h
    split at h
    next hclaim =>
      obtain rfl := Option.some.inj h
      exact .claimed hclaim.2
    next =>
      obtain rfl := Option.some.inj h
      exact .same
  | deleteBatch ids =>
    simp only [TaskDb.rewrite] at h
    split at h
    next => cases h
    next =>
      obtain rfl := Option.some.inj h
      exact .same
  | complete | fail | reschedule =>
    obtain rfl := Option.some.inj h
    split
    next hid =>
      subst hid
      constructor
    next => exact .same
  | reapRetryable =>
    obtain rfl := Option.some.inj h
    split
    next hreap => exact .requeued hreap.1 hreap.2
    next => exact .same
  | reapExhausted =>
    obtain rfl := Option.some.inj h
    split
    next hreap => exact .exhausted hreap.1
    next => exact .same

theorem TaskEffect.fixed (h : TaskEffect e cmd row row') :
    row'.id = row.id ∧ row'.tenantId = row.tenantId ∧ row'.maxRetries = row.maxRetries := by
  cases h <;> exact ⟨rfl, rfl, rfl⟩

theorem TaskDb.rewrite_id (h : db.rewrite e cmd row = some row') : row'.id = row.id :=
  (rewrite_effect h).fixed.1

end

/-! ### Keys -/

/-- The identifiers are keys, and all drawn. -/
structure Keyed (db : TaskDb) : Prop where
  nodup : (db.tasks.map TaskRow.id).Nodup
  lt : ∀ row ∈ db.tasks, row.id < db.issued

section
variable {e : Env} {cmd : TaskCmd} {db : TaskDb} {row row' : TaskRow}

theorem inserted_id (h : row ∈ db.inserted cmd) : row.id = db.issued ∧ db.inserted cmd = [row] := by
  cases cmd with
  | enqueue =>
    simp only [TaskDb.inserted] at h ⊢
    split at h
    next hroom =>
      rw [if_pos hroom, List.mem_singleton.1 h]
      exact ⟨rfl, rfl⟩
    next => cases h
  | _ => cases h

theorem issued_le : db.issued ≤ (exec e cmd db).1.issued := by
  cases cmd with
  | enqueue =>
    simp only [exec]
    split <;> exact Nat.le_succ _
  | dequeue =>
    simp only [exec]
    split
    · exact le_rfl
    · rw [TaskDb.claim]
      split <;> exact le_rfl
  | _ => exact le_rfl

theorem inserted_lt (h : row ∈ db.inserted cmd) : row.id < (exec e cmd db).1.issued := by
  cases cmd with
  | enqueue =>
    rw [(inserted_id h).1, exec]
    split <;> exact Nat.lt_succ_self _
  | _ => cases h

theorem mem_exec : row' ∈ (exec e cmd db).1.tasks ↔
    (∃ row ∈ db.tasks, db.rewrite e cmd row = some row') ∨ row' ∈ db.inserted cmd := by
  rw [TaskDb.exec_tasks, List.mem_append, List.mem_filterMap]

theorem Keyed.empty : Keyed .empty := ⟨List.nodup_nil, fun _ h => absurd h List.not_mem_nil⟩

theorem Keyed.eq (h : Keyed db) (hrow : row ∈ db.tasks) (hrow' : row' ∈ db.tasks)
    (hid : row.id = row'.id) : row = row' :=
  List.inj_on_of_nodup_map h.nodup hrow hrow' hid

theorem Keyed.byId (h : Keyed db) (hrow : row ∈ db.tasks) : db.byId row.id = some row := by
  cases hf : db.byId row.id with
  | none => simpa using List.find?_eq_none.1 hf row hrow
  | some other =>
    have hid : other.id = row.id := by simpa using List.find?_some hf
    rw [h.eq (List.mem_of_find?_eq_some hf) hrow hid]

theorem byId_spec {id : TaskId} (h : db.byId id = some row) : row ∈ db.tasks ∧ row.id = id :=
  Table.find_spec h

theorem Keyed.exec (h : Keyed db) : Keyed (exec e cmd db).1 := by
  refine ⟨?_, ?_⟩
  · have hsub : ((db.tasks.filterMap (db.rewrite e cmd)).map TaskRow.id).Sublist
        (db.tasks.map TaskRow.id) := by
      generalize db.tasks = rows
      induction rows with
      | nil => exact List.Sublist.refl _
      | cons row rows ih =>
        cases hr : db.rewrite e cmd row with
        | none =>
          rw [List.filterMap_cons_none hr]
          exact ih.cons _
        | some row' =>
          rw [List.filterMap_cons_some hr, List.map_cons, List.map_cons, TaskDb.rewrite_id hr]
          exact ih.cons_cons _
    rw [TaskDb.exec_tasks, List.map_append]
    refine List.nodup_append.2 ⟨hsub.nodup h.nodup, ?_, ?_⟩
    · cases hi : db.inserted cmd with
      | nil => exact List.nodup_nil
      | cons row rows =>
        have hmem : row ∈ db.inserted cmd := hi ▸ List.mem_cons_self
        rw [(inserted_id hmem).2] at hi
        rw [← hi]
        exact List.nodup_singleton _
    · -- a new identifier is one that no row has
      intro id hid id' hid' heq
      obtain ⟨row, hrow, rfl⟩ := List.mem_map.1 (hsub.subset hid)
      obtain ⟨new, hnew, rfl⟩ := List.mem_map.1 hid'
      have hlt := h.lt row hrow
      rw [heq, (inserted_id hnew).1] at hlt
      exact absurd hlt (lt_irrefl _)
  · intro row' hrow'
    obtain ⟨row, hrow, hr⟩ | hnew := mem_exec.1 hrow'
    · rw [TaskDb.rewrite_id hr]
      exact (h.lt row hrow).trans_le issued_le
    · exact inserted_lt hnew

/-- What an identifier selects after a command. -/
theorem Keyed.byId_exec (h : Keyed db) (hrow : row ∈ db.tasks) :
    (Queue.exec e cmd db).1.byId row.id = db.rewrite e cmd row := by
  cases hr : db.rewrite e cmd row with
  | some row' =>
    rw [← TaskDb.rewrite_id hr]
    exact h.exec.byId (mem_exec.2 (.inl ⟨row, hrow, hr⟩))
  | none =>
    cases hf : (Queue.exec e cmd db).1.byId row.id with
    | none => rfl
    | some row' =>
      obtain ⟨hmem, hid⟩ := byId_spec hf
      obtain ⟨other, hother, ho⟩ | hnew := mem_exec.1 hmem
      · obtain rfl := h.eq hother hrow ((TaskDb.rewrite_id ho).symm.trans hid)
        rw [hr] at ho
        cases ho
      · have hlt := h.lt row hrow
        rw [← hid, (inserted_id hnew).1] at hlt
        exact absurd hlt (lt_irrefl _)

end

/-! ## The queue -/

inductive TaskResult
  | enqueued (taskId : TaskId)
  | dequeued (task : Option TaskRow)
  | affected (rows : ℕ)
  | done
  deriving DecidableEq

structure TaskQueueConfig where
  maxPendingPerTenant : ℕ
  completedRetentionMs : ℤ

abbrev TaskProg := Prog TaskDb TaskCmd TaskReply Env String

/-- `Date.now()`. -/
def now : TaskProg ℤ := Prog.queryAny fun e _ => e.now

def enqueue (config : TaskQueueConfig) (tenantId type payload : String) (maxRetries priority : ℤ) :
    TaskProg TaskId := do
  let now ← now
  let result ← Prog.transaction
    (.enqueue tenantId type payload maxRetries now priority config.maxPendingPerTenant)
  if result.rowsAffected = 0 then
    .throw s!"租户 {tenantId} 待处理任务已达上限 ({config.maxPendingPerTenant})"
  else return result.taskId

def dequeue (workerId : String) : TaskProg (Option TaskRow) := do
  let reply ← Prog.transaction (.dequeue workerId (← now))
  return reply.task

def complete (workerId : String) (taskId : TaskId) (result : String) : TaskProg Unit := do
  let _ ← Prog.transaction (.complete workerId taskId result (← now))

def fail (workerId : String) (taskId : TaskId) (error : String) : TaskProg Unit := do
  let _ ← Prog.transaction (.fail workerId taskId error (← now))

def reschedule (workerId : String) (taskId : TaskId) (retryCount : ℕ) (availableAt : ℤ)
    (error : String) : TaskProg Unit := do
  let _ ← Prog.transaction (.reschedule workerId taskId retryCount availableAt error (← now))

/-- The identifiers of finished tasks that were last updated before the cutoff, `batchSize` of them. -/
def expiredIds (cutoff : ℤ) (batchSize tie : ℕ) (db : TaskDb) : List TaskId :=
  let expired := db.tasks.filter fun row => row.Finished ∧ row.updatedAt < cutoff
  ((expired.rotate tie).take batchSize).map TaskRow.id

/-- The loop of `purgeCompleted`, broken off after `rounds` rounds. -/
def purgeRounds (cutoff : ℤ) (batchSize : ℕ) : ℕ → ℕ → TaskProg ℕ
  | 0, total => return total
  | rounds + 1, total => do
    let ids ← Prog.queryAny fun e db => expiredIds cutoff batchSize e.tie db
    if ids.length = 0 then return total
    else
      let _ ← Prog.transaction (.deleteBatch ids)
      if ids.length < batchSize then return total + ids.length
      else purgeRounds cutoff batchSize rounds (total + ids.length)

def purgeCompleted (config : TaskQueueConfig) (rounds batchSize : ℕ) : TaskProg ℕ := do
  let now ← now
  purgeRounds (now - config.completedRetentionMs) batchSize rounds 0

def reapStaleTasks (staleThresholdMs : ℤ) : TaskProg ℕ := do
  let requeued ← Prog.transaction (.reapRetryable staleThresholdMs)
  let failed ← Prog.transaction (.reapExhausted staleThresholdMs "任务超时且已达到最大重试次数")
  return requeued.rowsAffected + failed.rowsAffected

/-! ## The worker -/

structure TaskWorker where
  /-- The `workerId` of its queue. -/
  workerId : String
  registeredTypes : List String
  maxRetries : ℤ

namespace TaskWorker

variable (worker : TaskWorker)

def limit (task : TaskRow) : ℤ := if task.maxRetries = 0 then worker.maxRetries else task.maxRetries

/-- What is reported of a task once its handler has come to an end. -/
def report (task : TaskRow) : Except String String → TaskProg Unit
  | .ok result => complete worker.workerId task.id result
  | .error errorMsg =>
    if task.retryCount + 1 < worker.limit task then do
      let delay : ℤ := min 30000 (1000 * 2 ^ task.retryCount)
      let availableAt := (← now) + delay
      reschedule worker.workerId task.id (task.retryCount + 1) availableAt errorMsg
    else fail worker.workerId task.id errorMsg

def handleTask (task : TaskRow) : TaskProg Unit :=
  if task.type ∉ worker.registeredTypes then
    let joined := ", ".intercalate worker.registeredTypes
    let registered := if joined = "" then "无" else joined
    fail worker.workerId task.id s!"未注册的任务类型: {task.type}（已注册: {registered}）"
  else do
    let outcome ← Prog.queryAny fun e _ => e.outcome
    worker.report task outcome

/-- One round of `tick`. -/
def work : TaskProg Unit := do
  match ← dequeue worker.workerId with
  | none => return
  | some task => worker.handleTask task

end TaskWorker

inductive TaskCall
  | enqueue (tenantId type payload : String) (maxRetries priority : ℤ)
  | dequeue (workerId : String)
  | complete (workerId : String) (taskId : TaskId) (result : String)
  | fail (workerId : String) (taskId : TaskId) (error : String)
  | reschedule (workerId : String) (taskId : TaskId) (retryCount : ℕ) (availableAt : ℤ) (error : String)
  | purge (rounds batchSize : ℕ)
  | reap (staleThresholdMs : ℤ)
  | work (worker : TaskWorker)

def TaskCall.start (config : TaskQueueConfig) : TaskCall → TaskProg TaskResult
  | .enqueue tenantId type payload maxRetries priority =>
    return .enqueued (← Queue.enqueue config tenantId type payload maxRetries priority)
  | .dequeue workerId => return .dequeued (← Queue.dequeue workerId)
  | .complete workerId taskId result => do
    Queue.complete workerId taskId result
    return .done
  | .fail workerId taskId error => do
    Queue.fail workerId taskId error
    return .done
  | .reschedule workerId taskId retryCount availableAt error => do
    Queue.reschedule workerId taskId retryCount availableAt error
    return .done
  | .purge rounds batchSize => return .affected (← purgeCompleted config rounds batchSize)
  | .reap staleThresholdMs => return .affected (← reapStaleTasks staleThresholdMs)
  | .work worker => do
    worker.work
    return .done

/-- Nothing is enqueued but by the limit `m`. -/
def TaskCmd.LimitedTo (m : ℕ) : TaskCmd → Prop
  | .enqueue _ _ _ _ _ _ maxPending => maxPending = m
  | _ => True

theorem purgeRounds_limited {m : ℕ} (cutoff : ℤ) (batchSize rounds total : ℕ) :
    (purgeRounds cutoff batchSize rounds total).Uses (TaskCmd.LimitedTo m) := by
  induction rounds generalizing total with
  | zero => trivial
  | succ rounds ih =>
    refine Prog.Uses.bind .queryAny fun ids => ?_
    split
    · trivial
    · refine Prog.Uses.bind (.transaction trivial) fun _ => ?_
      split
      · trivial
      · exact ih _

theorem report_limited {m : ℕ} (worker : TaskWorker) (task : TaskRow) (outcome : Except String String) :
    (worker.report task outcome).Uses (TaskCmd.LimitedTo m) := by
  cases outcome with
  | ok result => exact fun _ _ => ⟨trivial, fun _ => trivial⟩
  | error errorMsg =>
    simp only [TaskWorker.report]
    split
    · exact fun _ _ _ _ => ⟨trivial, fun _ => trivial⟩
    · exact fun _ _ => ⟨trivial, fun _ => trivial⟩

theorem TaskCall.limited (config : TaskQueueConfig) (call : TaskCall) :
    (call.start config).Uses (TaskCmd.LimitedTo config.maxPendingPerTenant) := by
  cases call with
  | enqueue tenantId type payload maxRetries priority =>
    refine Prog.Uses.bind (Prog.Uses.bind .queryAny fun now => ?_) fun _ => trivial
    refine Prog.Uses.bind (.transaction rfl) fun result => ?_
    split <;> trivial
  | dequeue | complete | fail | reschedule => exact fun _ _ => ⟨trivial, fun _ => trivial⟩
  | purge rounds batchSize =>
    exact Prog.Uses.bind (fun _ _ => purgeRounds_limited _ _ _ _) fun _ => trivial
  | reap => exact ⟨trivial, fun _ => ⟨trivial, fun _ => trivial⟩⟩
  | work worker =>
    refine Prog.Uses.bind (Prog.Uses.bind ?_ fun task => ?_) fun _ => trivial
    · exact fun _ _ => ⟨trivial, fun _ => trivial⟩
    split
    · trivial
    · simp only [TaskWorker.handleTask]
      split
      · exact fun _ _ => ⟨trivial, fun _ => trivial⟩
      · exact fun e _ => report_limited _ _ _

/-- The calls of any number of workers over the table. -/
abbrev TaskPool := Pool TaskCall TaskDb TaskCmd TaskReply Env String TaskResult

abbrev TaskMove := Move TaskCall Env

end ChronoSynth.Queue
