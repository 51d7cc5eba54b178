import Mathlib.Data.List.Sort
import Mathlib.Logic.Function.Basic
import ChronoSynth.Lib.Traces
import ChronoSynth.Lib.Table

/-!
# The billing outbox

The table `billing_outbox` in the databases of all shards, its commands, and the calls of `BillingOutbox`:
`enqueue`, and `flush`, which claims what is pending, reports it to Stripe and notes the outcome.

* Every command is one statement. A database has its own clock, which stamps the claims and by which stale
  ones are requeued; the clock of the process is another one. Both are in the oracle `Env`, with Stripe's
  answer and the order of rows that were created at one time.
* Each database counts its identifiers for itself; here they are counted over all, and a row tells its shard.
* Successful claims are numbered. No column has the number and no command reads it: it tells whose claim a
  row is under.
* `fallbackSeqCounter` lives in the memory of a process, which is a part of the state here.
-/

namespace ChronoSynth.Metering

def MAX_ATTEMPTS : ℕ := 5

def STALE_PROCESSING_MS : ℤ := 5 * 60 * 1000

inductive OutboxStatus
  | pending | processing | sent | failed
  deriving DecidableEq, Repr

/-- A row of `billing_outbox`. -/
structure OutboxRow where
  id : ℕ
  /-- The database it stands in. -/
  shard : ℕ
  tenantId : String
  customerId : String
  eventName : String
  quantity : ℤ
  idempotencyKey : String
  status : OutboxStatus
  attempts : ℕ
  lastError : Option String
  createdAt : ℤ
  processedAt : Option ℤ
  /-- The number of the claim that it is processed under. -/
  claim : Option ℕ
  deriving DecidableEq, Repr

structure OutboxState where
  rows : List OutboxRow
  /-- How many claims have succeeded. -/
  claims : ℕ
  /-- The `fallbackSeqCounter` of each process. -/
  fallbackSeq : ℕ → ℕ

/-- Nothing has been enqueued, and every process has just started. -/
def OutboxState.empty : OutboxState := ⟨[], 0, fun _ => 0⟩

/-- What is open about a step: the clock of the process, that of the database, Stripe's answer, and the
order of rows that were created at one time. -/
structure Env where
  now : ℤ
  dbNow : ℤ
  /-- What goes wrong with a report, if anything does. -/
  failure : Option String
  rank : ℕ → ℕ

/-- A moment at which both clocks agree and Stripe accepts. -/
def Env.at (now : ℤ) : Env := ⟨now, now, none, fun id => id⟩

/-! ## Commands -/

inductive OutboxCmd
  /-- The clock is read and the counter of the process counted up. -/
  | nextFallback (process : ℕ)
  | enqueue (shard : ℕ) (tenantId customerId eventName : String) (quantity : ℤ) (idempotencyKey : String)
      (now : ℤ)
  | requeueStale (shard : ℕ) (staleProcessingMs : ℤ)
  | claim (id : ℕ)
  /-- The usage of the row `id` is reported to Stripe. -/
  | reportUsage (id : ℕ) (customerId eventName : String) (quantity : ℤ) (idempotencyKey : String)
  | markSent (id : ℕ) (now : ℤ)
  | markFailed (id : ℕ) (errorMessage : String) (maxAttempts : ℕ)
  deriving DecidableEq, Repr

structure OutboxReply where
  rowsAffected : ℕ
  /-- The number of a claim that has succeeded. -/
  claim : ℕ
  /-- The clock and the counter of the process. -/
  fallback : ℤ × ℕ
  /-- What went wrong with a report. -/
  failure : Option String
  deriving DecidableEq, Repr

/-- The reply of a statement. -/
def OutboxReply.affected (rows : ℕ) : OutboxReply := ⟨rows, 0, (0, 0), none⟩

namespace OutboxRow

/-- It has been processed for longer than the given time. -/
def Stale (row : OutboxRow) (dbNow staleProcessingMs : ℤ) : Prop :=
  row.status = .processing ∧ ∃ at_ ∈ row.processedAt, at_ < dbNow - staleProcessingMs

instance (row : OutboxRow) (dbNow staleProcessingMs : ℤ) : Decidable (row.Stale dbNow staleProcessingMs) :=
  inferInstanceAs (Decidable (_ ∧ _))

/-! What the commands set. -/

def requeued (row : OutboxRow) : OutboxRow :=
  { row with status := .pending, processedAt := none, claim := none }

def claimed (dbNow : ℤ) (claim : ℕ) (row : OutboxRow) : OutboxRow :=
  { row with status := .processing, processedAt := some dbNow, claim := some claim }

def markSent (now : ℤ) (row : OutboxRow) : OutboxRow :=
  { row with status := .sent, processedAt := some now, claim := none }

def markFailed (errorMessage : String) (maxAttempts : ℕ) (row : OutboxRow) : OutboxRow :=
  { row with
    attempts := row.attempts + 1, lastError := some errorMessage,
    status := if maxAttempts ≤ row.attempts + 1 then .failed else .pending, claim := none }

end OutboxRow

namespace OutboxState

variable (db : OutboxState)

def HasKey (shard : ℕ) (idempotencyKey : String) : Prop :=
  ∃ row ∈ db.rows, row.shard = shard ∧ row.idempotencyKey = idempotencyKey

instance (shard : ℕ) (idempotencyKey : String) : Decidable (db.HasKey shard idempotencyKey) :=
  inferInstanceAs (Decidable (∃ row ∈ _, _))

/-- `UPDATE billing_outbox SET g WHERE p`. -/
def update (p : OutboxRow → Prop) [DecidablePred p] (g : OutboxRow → OutboxRow) :
    OutboxState × OutboxReply :=
  ({ db with rows := Table.update p g db.rows }, .affected (db.rows.countP p))

/-- `SELECT … WHERE status = 'pending' AND attempts < ? ORDER BY created_at ASC LIMIT ?`. -/
def queryPending (shard maxAttempts limit : ℕ) (rank : ℕ → ℕ) : List OutboxRow :=
  let pending := db.rows.filter fun row =>
    row.shard = shard ∧ row.status = .pending ∧ row.attempts < maxAttempts
  (pending.insertionSort fun a b =>
    a.createdAt < b.createdAt ∨ a.createdAt = b.createdAt ∧ rank a.id ≤ rank b.id).take limit

end OutboxState

def exec (e : Env) (cmd : OutboxCmd) (db : OutboxState) : OutboxState × OutboxReply :=
  match cmd with
  | .nextFallback process =>
    let seq := db.fallbackSeq process
    ({ db with fallbackSeq := Function.update db.fallbackSeq process (seq + 1) },
      { OutboxReply.affected 0 with fallback := (e.now, seq) })
  | .enqueue shard tenantId customerId eventName quantity idempotencyKey now =>
    if db.HasKey shard idempotencyKey then (db, .affected 0)
    else
      let row : OutboxRow := {
        id := db.rows.length, shard, tenantId, customerId, eventName, quantity, idempotencyKey,
        status := .pending, attempts := 0, lastError := none, createdAt := now, processedAt := none,
        claim := none }
      ({ db with rows := db.rows ++ [row] }, .affected 1)
  | .requeueStale shard staleProcessingMs =>
    db.update (fun row => row.shard = shard ∧ row.Stale e.dbNow staleProcessingMs) .requeued
  | .claim id =>
    let claimed := db.update (fun row => row.id = id ∧ row.status = .pending) (.claimed e.dbNow db.claims)
    ({ claimed.1 with claims := db.claims + 1 }, { claimed.2 with claim := db.claims })
  | .reportUsage .. => (db, { OutboxReply.affected 0 with failure := e.failure })
  | .markSent id now => db.update (fun row => row.id = id) (.markSent now)
  | .markFailed id errorMessage maxAttempts =>
    db.update (fun row => row.id = id) (.markFailed errorMessage maxAttempts)

/-! ### What a command makes of a row -/

namespace OutboxState

variable (e : Env) (cmd : OutboxCmd) (db : OutboxState) (row : OutboxRow)

/-- What becomes of a row. -/
def rewrite : OutboxRow :=
  match cmd with
  | .nextFallback _ | .enqueue .. | .reportUsage .. => row
  | .requeueStale shard staleProcessingMs =>
    if row.shard = shard ∧ row.Stale e.dbNow staleProcessingMs then row.requeued else row
  | .claim id => if row.id = id ∧ row.status = .pending then row.claimed e.dbNow db.claims else row
  | .markSent id now => if row.id = id then row.markSent now else row
  | .markFailed id errorMessage maxAttempts =>
    if row.id = id then row.markFailed errorMessage maxAttempts else row

/-- The rows that are new. -/
def inserted : List OutboxRow :=
  match cmd with
  | .enqueue shard tenantId customerId eventName quantity idempotencyKey now =>
    if db.HasKey shard idempotencyKey then []
    else [{
      id := db.rows.length, shard, tenantId, customerId, eventName, quantity, idempotencyKey,
      status := .pending, attempts := 0, lastError := none, createdAt := now, processedAt := none,
      claim := none }]
  | _ => []

variable {e cmd db row} {row' : OutboxRow}

/-- **The table after a command**: every row rewritten, and what is new. -/
theorem exec_rows : (exec e cmd db).1.rows = db.rows.map (db.rewrite e cmd) ++ db.inserted cmd := by
  cases cmd with
  | enqueue shard tenantId customerId eventName quantity idempotencyKey now =>
    have hsame : db.rows.map (db.rewrite e (.enqueue shard tenantId customerId eventName quantity
        idempotencyKey now)) = db.rows := List.map_id _
    rw [hsame]
    simp only [exec, inserted]
    split
    · rw [List.append_nil]
    · rfl
  | nextFallback | reportUsage =>
    simp only [exec, inserted, List.append_nil]
    exact (List.map_id _).symm
  | _ =>
    simp only [inserted, List.append_nil]
    rfl

theorem mem_exec : row' ∈ (exec e cmd db).1.rows ↔
    (∃ row ∈ db.rows, db.rewrite e cmd row = row') ∨ row' ∈ db.inserted cmd := by
  rw [exec_rows, List.mem_append, List.mem_map]

theorem rewrite_mem (h : row ∈ db.rows) : db.rewrite e cmd row ∈ (exec e cmd db).1.rows :=
  mem_exec.2 (.inl ⟨row, h, rfl⟩)

theorem rewrite_fixed : (db.rewrite e cmd row).id = row.id ∧ (db.rewrite e cmd row).shard = row.shard ∧
    (db.rewrite e cmd row).idempotencyKey = row.idempotencyKey := by
  cases cmd with
  | nextFallback | enqueue | reportUsage => exact ⟨rfl, rfl, rfl⟩
  | _ =>
    simp only [rewrite]
    split <;> exact ⟨rfl, rfl, rfl⟩

@[simp] theorem rewrite_id : (db.rewrite e cmd row).id = row.id := rewrite_fixed.1

theorem inserted_spec (h : row ∈ db.inserted cmd) :
    row.id = db.rows.length ∧ row.status = .pending ∧ row.attempts = 0 ∧ row.claim = none ∧
      db.inserted cmd = [row] := by
  cases cmd with
  | enqueue =>
    simp only [inserted] at h ⊢
    split at h
    next => cases h
    next hkey =>
      rw [if_neg hkey, List.mem_singleton.1 h]
      exact ⟨rfl, rfl, rfl, rfl, rfl⟩
  | _ => cases h

def Keyed (db : OutboxState) : Prop := Table.Numbered OutboxRow.id db.rows

theorem Keyed.exec (h : db.Keyed) : (exec e cmd db).1.Keyed := by
  have hmap : Table.Numbered OutboxRow.id (db.rows.map (db.rewrite e cmd)) := by
    have h' : db.rows.map OutboxRow.id = List.range db.rows.length := h
    rw [Table.Numbered, List.map_map, List.length_map, ← h']
    exact List.map_congr_left fun row _ => rewrite_id
  rw [Keyed, exec_rows]
  cases hi : db.inserted cmd with
  | nil => rwa [List.append_nil]
  | cons row rows =>
    have hnew := inserted_spec (hi ▸ List.mem_cons_self : row ∈ db.inserted cmd)
    obtain rfl : rows = [] := (List.cons_eq_cons.1 (hi.symm.trans hnew.2.2.2.2)).2
    exact hmap.append (by rw [hnew.1, List.length_map])

end OutboxState

/-! ## The calls -/

abbrev OutboxProg := Prog OutboxState OutboxCmd OutboxReply Env String

/-- `this.clock.now()`. -/
def now : OutboxProg ℤ := Prog.queryAny fun e _ => e.now

/-- `${tenantId}:${eventName}:${…}`. -/
def idempotencyKey (tenantId eventName suffix : String) : String :=
  tenantId ++ ":" ++ (eventName ++ ":" ++ suffix)

/-- What stands in a key in place of a source. -/
def fallbackSuffix (now : ℤ) (seq : ℕ) : String := toString now ++ ":" ++ toString seq

/-- A call of `enqueue` in a process. -/
structure EnqueueParams where
  process : ℕ
  tenantId : String
  customerId : String
  eventName : String
  quantity : ℤ
  sourceId : Option String
  /-- What is metered by the call, which does not look at it. -/
  operation : ℕ
  deriving DecidableEq, Repr

/-- `sourceId !== undefined && sourceId.length > 0`. -/
def EnqueueParams.source (p : EnqueueParams) : Option String := p.sourceId.filter (· ≠ "")

/-- The last part of the key: the source, or else the clock and the counter of the process. -/
def keySuffix (p : EnqueueParams) : OutboxProg String :=
  match p.source with
  | some sourceId => return sourceId
  | none => do
    let reply ← Prog.transaction (.nextFallback p.process)
    return fallbackSuffix reply.fallback.1 reply.fallback.2

def enqueue (shardOf : String → ℕ) (p : EnqueueParams) : OutboxProg Bool := do
  let suffix ← keySuffix p
  let now ← now
  let result ← Prog.transaction (.enqueue (shardOf p.tenantId) p.tenantId p.customerId p.eventName
    p.quantity (idempotencyKey p.tenantId p.eventName suffix) now)
  return 0 < result.rowsAffected

/-- How many rows a flush has processed, and how many of them have failed. -/
abbrev FlushResult := ℕ × ℕ

/-- What `flushOneDb` does with a row. -/
def flushRow (row : OutboxRow) : OutboxProg FlushResult := do
  let result ← Prog.transaction (.claim row.id)
  if result.rowsAffected = 0 then return (0, 0)
  else
    let reply ← Prog.transaction
      (.reportUsage row.id row.customerId row.eventName row.quantity row.idempotencyKey)
    match reply.failure with
    | none =>
      let now ← now
      let _ ← Prog.transaction (.markSent row.id now)
      return (1, 0)
    | some errMsg =>
      let _ ← Prog.transaction (.markFailed row.id errMsg MAX_ATTEMPTS)
      return (0, 1)

def flushRows : List OutboxRow → OutboxProg FlushResult
  | [] => return (0, 0)
  | row :: rows => do
    let r ← flushRow row
    let rest ← flushRows rows
    return (r.1 + rest.1, r.2 + rest.2)

def flushOneDb (shard batchSize : ℕ) : OutboxProg FlushResult := do
  let _ ← Prog.transaction (.requeueStale shard STALE_PROCESSING_MS)
  let rows ← Prog.queryAny fun e db => db.queryPending shard MAX_ATTEMPTS batchSize e.rank
  flushRows rows

def flush (batchSize : ℕ) : List ℕ → OutboxProg FlushResult
  | [] => return (0, 0)
  | shard :: shards => do
    let r ← flushOneDb shard batchSize
    let rest ← flush batchSize shards
    return (r.1 + rest.1, r.2 + rest.2)

inductive OutboxCall
  | enqueue (params : EnqueueParams)
  /-- The databases are those a worker gets from its resolver. -/
  | flush (batchSize : ℕ) (shards : List ℕ)
  deriving DecidableEq

inductive OutboxResult
  | enqueued (added : Bool)
  | flushed (result : FlushResult)
  deriving DecidableEq

def OutboxCall.start (shardOf : String → ℕ) : OutboxCall → OutboxProg OutboxResult
  | .enqueue params => return .enqueued (← Metering.enqueue shardOf params)
  | .flush batchSize shards => return .flushed (← Metering.flush batchSize shards)

/-- The calls of any number of processes over the databases. -/
abbrev OutboxPool := Pool OutboxCall OutboxState OutboxCmd OutboxReply Env String OutboxResult

abbrev OutboxThread := Thread OutboxCall OutboxState OutboxCmd OutboxReply Env String OutboxResult

abbrev OutboxMove := Move OutboxCall Env

def OutboxPool.step (shardOf : String → ℕ) : OutboxPool → OutboxMove → OutboxPool :=
  Pool.step (OutboxCall.start shardOf) exec

def OutboxPool.init : OutboxPool := Pool.idle .empty

end ChronoSynth.Metering
