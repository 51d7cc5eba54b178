import Mathlib.Data.List.Sort
import ChronoSynth.Lib.Traces
import ChronoSynth.Lib.Table
import ChronoSynth.Observability.Rollups

/-!
# The observability outbox

The tables `observability_outbox`, `observability_processed_events` and `observability_rollups`, their
commands, and the calls of publishers and workers.

* Every command is one statement, but for `applyEvent`, the transaction in which a worker adds an event to the
  rollup of its tenant and marks it sent: it is carried out as a whole or not at all.
* The database's clock stamps the claims and judges stale ones; it and the worker's are in the oracle `Env`,
  with what goes wrong in a transaction and the order of events that were created at one time.
* A payload is the value that its text stands for. Identifiers are fresh random ones; here they are numbered.
* Topics and partition keys, which only the dead letter queue reads, are left out with it.
-/

namespace ChronoSynth.Observability

inductive OutboxStatus
  | pending | processing | sent | failed
  deriving DecidableEq, Repr

/-- A row of `observability_outbox`. -/
structure OutboxRow where
  id : ℕ
  tenantId : String
  eventType : ObservabilityEventType
  payload : Json
  status : OutboxStatus
  attempts : ℕ
  createdAt : ℤ
  processedAt : Option ℤ
  lastError : Option String

/-- A row of `observability_processed_events`. -/
structure ProcessedEvent where
  eventId : ℕ
  tenantId : String
  eventType : ObservabilityEventType
  processedAt : ℤ
  deriving DecidableEq, Repr

structure ObservabilityDb where
  outbox : List OutboxRow
  processedEvents : List ProcessedEvent
  /-- The row of each tenant. -/
  rollups : String → Option Rollup

/-- Nothing has been published yet. -/
def ObservabilityDb.empty : ObservabilityDb := ⟨[], [], fun _ => none⟩

/-- What is open about a step: the worker's clock, the database's, what goes wrong in a transaction, and the
order of events that were created at one time. -/
structure Env where
  now : ℤ
  dbNow : ℤ
  failure : Option String
  rank : ℕ → ℕ

/-- A moment at which both clocks agree and nothing goes wrong. -/
def Env.at (now : ℤ) : Env := ⟨now, now, none, fun id => id⟩

/-! ## Commands -/

inductive ObservabilityCmd
  | publishEvent (tenantId : String) (eventType : ObservabilityEventType) (payload : Json) (now : ℤ)
  | requeueStale (staleProcessingMs : ℤ)
  | markProcessing (id : ℕ)
  | applyEvent (row : OutboxRow) (now : ℤ)
  | markFailed (id attempts : ℕ) (error : String) (now : ℤ) (status : OutboxStatus)

structure ObservabilityReply where
  rowsAffected : ℕ
  /-- What went wrong in a transaction. -/
  failure : Option String
  deriving DecidableEq, Repr

namespace OutboxRow

def Stale (row : OutboxRow) (dbNow staleProcessingMs : ℤ) : Prop :=
  row.status = .processing ∧ ∃ at_ ∈ row.processedAt, at_ < dbNow - staleProcessingMs

instance (row : OutboxRow) (dbNow staleProcessingMs : ℤ) : Decidable (row.Stale dbNow staleProcessingMs) :=
  inferInstanceAs (Decidable (_ ∧ _))

/-- `parsePayload`, and the event it is the payload of. -/
def event (row : OutboxRow) : Option ObservabilityStoredEvent :=
  match row.payload with
  | .obj payload => some ⟨row.id, row.tenantId, row.eventType, payload, row.createdAt⟩
  | _ => none

/-! What the commands set. -/

def requeued (row : OutboxRow) : OutboxRow := { row with status := .pending, processedAt := none }

def processing (dbNow : ℤ) (row : OutboxRow) : OutboxRow :=
  { row with status := .processing, processedAt := some dbNow }

def markSent (now : ℤ) (row : OutboxRow) : OutboxRow :=
  { row with status := .sent, processedAt := some now, lastError := none }

def markFailed (attempts : ℕ) (error : String) (now : ℤ) (status : OutboxStatus) (row : OutboxRow) :
    OutboxRow :=
  { row with attempts := attempts, lastError := some error, processedAt := some now, status := status }

end OutboxRow

namespace ObservabilityDb

variable (db : ObservabilityDb)

/-- `UPDATE observability_outbox SET g WHERE p`. -/
def update (p : OutboxRow → Prop) [DecidablePred p] (g : OutboxRow → OutboxRow) :
    ObservabilityDb × ObservabilityReply :=
  ({ db with outbox := Table.update p g db.outbox }, ⟨db.outbox.countP p, none⟩)

/-- `SELECT … WHERE status = 'pending' ORDER BY created_at ASC LIMIT ?`. -/
def queryPendingEvents (limit : ℕ) (rank : ℕ → ℕ) : List OutboxRow :=
  let pending := db.outbox.filter fun row => row.status = .pending
  (pending.insertionSort fun a b =>
    a.createdAt < b.createdAt ∨ a.createdAt = b.createdAt ∧ rank a.id ≤ rank b.id).take limit

def Processed (eventId : ℕ) : Prop := ∃ row ∈ db.processedEvents, row.eventId = eventId

instance (eventId : ℕ) : Decidable (db.Processed eventId) := inferInstanceAs (Decidable (∃ row ∈ _, _))

/-- `applyObservabilityStoredEvent`: an event that has been processed is not processed again. -/
def applyStoredEvent (event : ObservabilityStoredEvent) (now : ℤ) : ObservabilityDb :=
  if db.Processed event.id then db
  else { db with
    processedEvents := db.processedEvents ++ [⟨event.id, event.tenantId, event.eventType, now⟩]
    rollups := Function.update db.rollups event.tenantId
      (some (Rollup.upsert (db.rollups event.tenantId) event.toRollupDelta)) }

end ObservabilityDb

def exec (e : Env) (cmd : ObservabilityCmd) (db : ObservabilityDb) :
    ObservabilityDb × ObservabilityReply :=
  match cmd with
  | .publishEvent tenantId eventType payload now =>
    let row : OutboxRow := {
      id := db.outbox.length, tenantId, eventType, payload, status := .pending, attempts := 0,
      createdAt := now, processedAt := none, lastError := none }
    ({ db with outbox := db.outbox ++ [row] }, ⟨1, none⟩)
  | .requeueStale staleProcessingMs => db.update (fun row => row.Stale e.dbNow staleProcessingMs) .requeued
  | .markProcessing id =>
    db.update (fun row => row.id = id ∧ row.status = .pending) (.processing e.dbNow)
  | .applyEvent row now =>
    match e.failure, row.event with
    | some error, _ => (db, ⟨0, some error⟩)
    | none, none => (db, ⟨0, some "observability payload 必须是对象"⟩)
    | none, some event => (db.applyStoredEvent event now).update (fun other => other.id = row.id) (.markSent now)
  | .markFailed id attempts error now status =>
    db.update (fun row => row.id = id) (.markFailed attempts error now status)

/-! ## The calls -/

abbrev ObservabilityProg := Prog ObservabilityDb ObservabilityCmd ObservabilityReply Env String

/-- `Date.now()`. -/
def now : ObservabilityProg ℤ := Prog.queryAny fun e _ => e.now

structure ObservabilityWorkerOptions where
  batchSize : ℕ
  maxAttempts : ℕ
  staleProcessingMs : ℤ

/-- How many events a flush has processed, and how many have failed. -/
abbrev FlushResult := ℕ × ℕ

def markObservabilityEventFailed (row : OutboxRow) (error : String) (maxAttempts : ℕ) :
    ObservabilityProg Unit := do
  let nextAttempts := row.attempts + 1
  let now ← now
  let _ ← Prog.transaction (.markFailed row.id nextAttempts error now
    (if maxAttempts ≤ nextAttempts then .failed else .pending))

/-- What `flushInternal` does with an event. -/
def flushRow (options : ObservabilityWorkerOptions) (row : OutboxRow) : ObservabilityProg FlushResult := do
  let claimed ← Prog.transaction (.markProcessing row.id)
  if claimed.rowsAffected = 0 then return (0, 0)
  else
    let now ← now
    let applied ← Prog.transaction (.applyEvent row now)
    match applied.failure with
    | none => return (1, 0)
    | some message =>
      markObservabilityEventFailed row message options.maxAttempts
      return (0, 1)

def flushRows (options : ObservabilityWorkerOptions) : List OutboxRow → ObservabilityProg FlushResult
  | [] => return (0, 0)
  | row :: rows => do
    let r ← flushRow options row
    let rest ← flushRows options rows
    return (r.1 + rest.1, r.2 + rest.2)

def flushInternal (options : ObservabilityWorkerOptions) : ObservabilityProg FlushResult := do
  let _ ← Prog.transaction (.requeueStale options.staleProcessingMs)
  let rows ← Prog.queryAny fun e db => db.queryPendingEvents options.batchSize e.rank
  flushRows options rows

def publishObservabilityEvent (tenantId : String) (eventType : ObservabilityEventType) (payload : Json) :
    ObservabilityProg Unit := do
  let now ← now
  let _ ← Prog.transaction (.publishEvent tenantId eventType payload now)

inductive ObservabilityCall
  | publish (tenantId : String) (eventType : ObservabilityEventType) (payload : Json)
  | flush (options : ObservabilityWorkerOptions)

def ObservabilityCall.start : ObservabilityCall → ObservabilityProg FlushResult
  | .publish tenantId eventType payload => do
    publishObservabilityEvent tenantId eventType payload
    return (0, 0)
  | .flush options => flushInternal options

/-- The calls of any number of publishers and workers over the database. -/
abbrev ObservabilityPool :=
  Pool ObservabilityCall ObservabilityDb ObservabilityCmd ObservabilityReply Env String FlushResult

abbrev ObservabilityMove := Move ObservabilityCall Env

/-! ## What a command makes of a row -/

/-- What becomes of a row. -/
def rewriteRow (e : Env) (cmd : ObservabilityCmd) (row : OutboxRow) : OutboxRow :=
  match cmd with
  | .publishEvent .. => row
  | .requeueStale staleProcessingMs => if row.Stale e.dbNow staleProcessingMs then row.requeued else row
  | .markProcessing id => if row.id = id ∧ row.status = .pending then row.processing e.dbNow else row
  | .applyEvent copy now =>
    if e.failure = none ∧ copy.event.isSome ∧ row.id = copy.id then row.markSent now else row
  | .markFailed id attempts error now status =>
    if row.id = id then row.markFailed attempts error now status else row

namespace ObservabilityDb

variable (e : Env) (cmd : ObservabilityCmd) (db : ObservabilityDb)

/-- The rows that are new. -/
def inserted : List OutboxRow :=
  match cmd with
  | .publishEvent tenantId eventType payload now =>
    [{ id := db.outbox.length, tenantId, eventType, payload, status := .pending, attempts := 0,
       createdAt := now, processedAt := none, lastError := none }]
  | _ => []

/-- The event that a command adds to the rollups. -/
def applied : Option ObservabilityStoredEvent :=
  match cmd with
  | .applyEvent copy _ =>
    match e.failure, copy.event with
    | none, some event => if db.Processed event.id then none else some event
    | _, _ => none
  | _ => none

variable {e cmd db} {row row' : OutboxRow}

theorem applyStoredEvent_outbox {event : ObservabilityStoredEvent} {now : ℤ} :
    (db.applyStoredEvent event now).outbox = db.outbox := by
  rw [applyStoredEvent]
  split <;> rfl

/-- **The outbox after a command**: every row rewritten, and what is new. -/
theorem exec_outbox :
    (exec e cmd db).1.outbox = db.outbox.map (rewriteRow e cmd) ++ db.inserted cmd := by
  cases cmd with
  | publishEvent tenantId eventType payload now =>
    have hsame : db.outbox.map (rewriteRow e (.publishEvent tenantId eventType payload now)) = db.outbox :=
      List.map_id _
    rw [hsame]
    rfl
  | applyEvent copy now =>
    simp only [inserted, List.append_nil, exec]
    cases hf : e.failure with
    | some error =>
      refine (List.map_id _).symm.trans (List.map_congr_left fun row _ => ?_)
      simp [rewriteRow, hf]
    | none =>
      cases he : copy.event with
      | none =>
        refine (List.map_id _).symm.trans (List.map_congr_left fun row _ => ?_)
        simp [rewriteRow, he]
      | some event =>
        simp only [update, applyStoredEvent_outbox, Table.update]
        exact List.map_congr_left fun row _ => by simp [rewriteRow, hf, he]
  | _ =>
    simp only [inserted, List.append_nil]
    rfl

end ObservabilityDb

end ChronoSynth.Observability
