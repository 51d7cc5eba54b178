import ChronoSynth.DataPlane.SqliteEventLedger
import ChronoSynth.Lib.Table
import ChronoSynth.Lib.Traces

/-!
# The dual write of the persona core

The table `persona_core_ledger_outbox` beside the ledger of the same database, and the calls
`enqueuePersonaEvent` and `flushOutbox`.

* Every command is one statement or the transaction of an append. The clock, the random ids' times, the order of
  rows that were created at one time and what goes wrong are in the oracle `Env`. Random ids are numbered.
* Commands are numbered as they are enqueued. That an event carries the number of its command, and a charge
  whether the row was tried, is noted beside and read by nobody.
-/

namespace ChronoSynth.DataPlane

/-- What is enqueued. -/
structure OutboxCommand where
  id : ℕ
  tenantId : String
  streamId : String
  payloadJson : String
  eventType : String
  commandId : String
  createdAt : ℤ
  deriving DecidableEq, Repr

/-- A row of `persona_core_ledger_outbox`. -/
structure OutboxRow extends OutboxCommand where
  attempts : ℕ
  lastAttemptedAt : Option ℤ
  error : Option String
  deriving DecidableEq, Repr

/-- The draft of a command's event, with the number of the command. -/
structure OutboxEvent where
  draft : DraftEvent
  source : ℕ
  deriving DecidableEq, Repr

def OutboxCommand.event (command : OutboxCommand) : OutboxEvent where
  draft := {
    eventType := command.eventType, schemaVersion := 1, commandId := command.commandId,
    payloadJson := command.payloadJson, backfillSourceId := none }
  source := command.id

structure DualWriteState where
  outbox : List OutboxRow
  ledger : List (EventLedgerRow OutboxEvent)
  /-- All that has been enqueued. -/
  commands : List OutboxCommand

def DualWriteState.empty : DualWriteState := ⟨[], [], []⟩

/-- What has gone wrong, and how many events an append had come to. -/
structure Failure where
  message : String
  reached : ℕ
  deriving DecidableEq, Repr

/-- What is open about a step: the clock, the clock at the `i`-th insertion of an append, the order of rows that
were created at one time, and what goes wrong. -/
structure Env where
  now : ℤ
  occurredAt : ℕ → ℤ
  rank : ℕ → ℕ
  failure : Option Failure

/-- A moment at which nothing goes wrong. -/
def Env.at (now : ℤ) : Env := ⟨now, fun _ => now, fun id => id, none⟩

/-! ## Commands -/

inductive DualWriteCmd
  | enqueue (tenantId streamId eventType commandId payloadJson : String)
  | append (tenantId streamId : String) (rows : List OutboxRow)
  | deleteRows (ids : List ℕ)
  /-- An attempt is charged to a row, which was `tried` or not. -/
  | recordFailure (id : ℕ) (now : ℤ) (error : String) (tried : Bool)
  deriving DecidableEq, Repr

/-- What has gone wrong. -/
abbrev DualWriteReply := Option Failure

namespace DualWriteState

def drafts (e : Env) (s : DualWriteState) (rows : List OutboxRow) : List (OutboxEvent × Draw) :=
  rows.zipIdx.map fun x =>
    (x.1.event, { eventId := toString (s.ledger.length + x.2), occurredAt := e.occurredAt x.2 })

/-- `SELECT … WHERE attempts < 3 ORDER BY created_at ASC LIMIT 100`. -/
def pending (s : DualWriteState) (rank : ℕ → ℕ) : List OutboxRow :=
  ((s.outbox.filter fun row => row.attempts < 3).insertionSort fun a b =>
    a.createdAt < b.createdAt ∨ a.createdAt = b.createdAt ∧ rank a.id ≤ rank b.id).take 100

end DualWriteState

def exec (e : Env) (cmd : DualWriteCmd) (s : DualWriteState) : DualWriteState × DualWriteReply :=
  match cmd with
  | .enqueue tenantId streamId eventType commandId payloadJson =>
    let command : OutboxCommand := {
      id := s.commands.length, tenantId, streamId, payloadJson, eventType, commandId, createdAt := e.now }
    ({ s with
        outbox := s.outbox ++ [{ toOutboxCommand := command, attempts := 0, lastAttemptedAt := none, error := none }]
        commands := s.commands ++ [command] }, none)
  | .append tenantId streamId rows =>
    match e.failure with
    | some failure => (s, some failure)
    | none => ({ s with ledger := (append tenantId streamId (s.drafts e rows) none s.ledger).1 }, none)
  | .deleteRows ids =>
    match e.failure with
    | some failure => (s, some failure)
    | none => ({ s with outbox := s.outbox.filter fun row => row.id ∉ ids }, none)
  | .recordFailure id now error _ =>
    ({ s with
        outbox := Table.update (fun row => row.id = id)
          (fun row => { row with
            attempts := row.attempts + 1, lastAttemptedAt := some now, error := some error }) s.outbox }, none)

/-! ## The calls -/

abbrev DualWriteProg := Prog DualWriteState DualWriteCmd DualWriteReply Env Empty

def OutboxRow.groupKey (row : OutboxRow) : String := row.tenantId ++ "::" ++ row.streamId

/-- The rows by their keys, in the order in which a `Map` has these. -/
def groupRows (rows : List OutboxRow) : List (List OutboxRow) :=
  (rows.map OutboxRow.groupKey).eraseDups.map fun key => rows.filter fun row => row.groupKey = key

/-- The loop over the rows of a group that has failed after so many of them. -/
def chargeRows (now : ℤ) (failure : Failure) : List (OutboxRow × ℕ) → DualWriteProg Unit
  | [] => return
  | (row, i) :: rows => do
    let _ ← Prog.transaction (.recordFailure row.id now failure.message (decide (i < failure.reached)))
    chargeRows now failure rows

/-- `append` and the `DELETE` after it, and what has gone wrong. -/
def appendAndDelete (first : OutboxRow) (rows : List OutboxRow) : DualWriteProg (Option Failure) := do
  let failure ← Prog.transaction (.append first.tenantId first.streamId rows)
  match failure with
  | some failure => return some failure
  | none =>
    let failure ← Prog.transaction (.deleteRows (rows.map fun row => row.id))
    return failure.map fun failure => { failure with reached := rows.length }

/-- How many rows have been flushed, and how many have failed. -/
def flushGroup (rows : List OutboxRow) : DualWriteProg (ℕ × ℕ) :=
  match rows with
  | [] => return (0, 0)
  | first :: _ => do
    let failure ← appendAndDelete first rows
    match failure with
    | none => return (rows.length, 0)
    | some failure =>
      let now ← Prog.queryAny fun e (_ : DualWriteState) => e.now
      chargeRows now failure rows.zipIdx
      return (0, rows.length)

def flushGroups : List (List OutboxRow) → DualWriteProg (ℕ × ℕ)
  | [] => return (0, 0)
  | rows :: groups => do
    let (flushed, failed) ← flushGroup rows
    let (flushed', failed') ← flushGroups groups
    return (flushed + flushed', failed + failed')

def flushOutbox : DualWriteProg (ℕ × ℕ) := do
  let rows ← Prog.queryAny fun e s => s.pending e.rank
  flushGroups (groupRows rows)

def enqueuePersonaEvent (tenantId streamId eventType commandId payloadJson : String) : DualWriteProg Unit := do
  let _ ← Prog.transaction (.enqueue tenantId streamId eventType commandId payloadJson)
  return

inductive DualWriteCall
  | enqueuePersonaEvent (tenantId streamId eventType commandId payloadJson : String)
  | flushOutbox
  deriving DecidableEq

def DualWriteCall.start : DualWriteCall → DualWriteProg (ℕ × ℕ)
  | .enqueuePersonaEvent tenantId streamId eventType commandId payloadJson => do
    DataPlane.enqueuePersonaEvent tenantId streamId eventType commandId payloadJson
    return (0, 0)
  | .flushOutbox => DataPlane.flushOutbox

/-- Any number of commands and workers over the database. -/
abbrev DualWritePool := Pool DualWriteCall DualWriteState DualWriteCmd DualWriteReply Env Empty (ℕ × ℕ)

abbrev DualWriteThread := Thread DualWriteCall DualWriteState DualWriteCmd DualWriteReply Env Empty (ℕ × ℕ)

abbrev DualWriteMove := Move DualWriteCall Env

/-- Nothing has been enqueued. -/
abbrev DualWritePool.init : DualWritePool := Pool.idle .empty

abbrev DualWritePool.step (p : DualWritePool) (m : DualWriteMove) : DualWritePool :=
  Pool.step DualWriteCall.start exec p m

end ChronoSynth.DataPlane
