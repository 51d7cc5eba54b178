import Mathlib.Data.Prod.Lex
import Mathlib.Data.String.Basic
import Mathlib.Logic.Function.Basic
import ChronoSynth.Lib.Feed
import ChronoSynth.Lib.Run

/-!
# The event ledger

The table `event_ledger` with `append`, and the checkpoints of its consumers with `nextBatch` and `ackBatch`.

* The ledger carries the draft of an event along and looks at nothing of it. What is drawn for the row of an
  event, its random id and the clock, comes with it.
* The checkpoint of a consumer is written by its own `ackBatch` only, so that the two queries of `nextBatch` are
  one step. A consumer acknowledges the batch it has received before it asks for the next one; its handle is the
  id of the batch's last event (base64 and back is left out).
-/

namespace ChronoSynth.DataPlane

structure DraftEvent where
  eventType : String
  schemaVersion : ℕ
  commandId : String
  payloadJson : String
  backfillSourceId : Option String
  deriving DecidableEq, Repr

/-- What is drawn for the row of an event. -/
structure Draw where
  eventId : String
  occurredAt : ℤ
  deriving DecidableEq, Repr

/-- The order the consumers read in. -/
abbrev Position := ℤ ×ₗ String

def Draw.position (draw : Draw) : Position := toLex (draw.occurredAt, draw.eventId)

/-- A row of `event_ledger`, with the draft `event`. -/
structure EventLedgerRow (δ : Type) where
  eventId : String
  tenantId : String
  streamId : String
  streamVersion : ℤ
  occurredAt : ℤ
  event : δ
  deriving DecidableEq, Repr

namespace EventLedgerRow

variable {δ : Type}

def position (row : EventLedgerRow δ) : Position := toLex (row.occurredAt, row.eventId)

def InStream (tenantId streamId : String) (row : EventLedgerRow δ) : Prop :=
  row.tenantId = tenantId ∧ row.streamId = streamId

instance (tenantId streamId : String) : DecidablePred (InStream (δ := δ) tenantId streamId) :=
  fun row => inferInstanceAs (Decidable (row.tenantId = tenantId ∧ row.streamId = streamId))

end EventLedgerRow

structure VersionConflictError where
  streamId : String
  expectedVersion : ℤ
  actualVersion : ℤ
  deriving DecidableEq, Repr

structure AppendResult where
  newVersion : ℤ
  eventCount : ℕ
  deriving DecidableEq, Repr

section
variable {δ : Type}

/-- The rows of a stream, in the order they were inserted. -/
def streamRows (ledger : List (EventLedgerRow δ)) (tenantId streamId : String) : List (EventLedgerRow δ) :=
  ledger.filter fun row => row.InStream tenantId streamId

/-- `MAX(stream_version)`, or -1. -/
def currentVersion (ledger : List (EventLedgerRow δ)) (tenantId streamId : String) : ℤ :=
  (((streamRows ledger tenantId streamId).map EventLedgerRow.streamVersion).max?).getD (-1)

/-- `INSERT … ON CONFLICT(event_id) DO NOTHING`. -/
def insertEvent (ledger : List (EventLedgerRow δ)) (row : EventLedgerRow δ) : List (EventLedgerRow δ) :=
  if ∃ old ∈ ledger, old.eventId = row.eventId then ledger else ledger ++ [row]

/-- The loop over the drafts, from the version before the first of them. -/
def insertEvents (tenantId streamId : String) :
    List (δ × Draw) → ℤ → List (EventLedgerRow δ) → List (EventLedgerRow δ) × ℤ
  | [], version, ledger => (ledger, version)
  | (event, draw) :: drafts, version, ledger =>
    insertEvents tenantId streamId drafts (version + 1) (insertEvent ledger {
      eventId := draw.eventId, tenantId, streamId, streamVersion := version + 1,
      occurredAt := draw.occurredAt, event })

/-- `append`, one transaction. -/
def append (tenantId streamId : String) (drafts : List (δ × Draw)) (expectedVersion : Option ℤ)
    (ledger : List (EventLedgerRow δ)) :
    List (EventLedgerRow δ) × Except VersionConflictError AppendResult :=
  let current := currentVersion ledger tenantId streamId
  match expectedVersion.filter fun expected => current ≠ expected with
  | some expected => (ledger, .error ⟨streamId, expected, current⟩)
  | none =>
    let (ledger, newVersion) := insertEvents tenantId streamId drafts current ledger
    (ledger, .ok ⟨newVersion, drafts.length⟩)

/-- `SELECT occurred_at FROM event_ledger WHERE event_id = ?`. -/
def occurredAtOf (ledger : List (EventLedgerRow δ)) (eventId : String) : Option ℤ :=
  (ledger.find? fun row => row.eventId = eventId).map EventLedgerRow.occurredAt

/-- The event is after the checkpoint. A comparison with the time of no event is not true. -/
def Ahead (ledger : List (EventLedgerRow δ)) (checkpoint : Option String) (row : EventLedgerRow δ) : Prop :=
  match checkpoint with
  | none => True
  | some lastEventId =>
    match occurredAtOf ledger lastEventId with
    | none => False
    | some time => time < row.occurredAt ∨ row.occurredAt = time ∧ lastEventId < row.eventId

instance (ledger : List (EventLedgerRow δ)) (checkpoint : Option String) : DecidablePred (Ahead ledger checkpoint) :=
  fun row => by
    unfold Ahead
    split
    · infer_instance
    · split <;> infer_instance

/-- `LIMIT ?`, of which a negative one is none. -/
def limit {α : Type} (batchSize : ℤ) (rows : List α) : List α :=
  if batchSize < 0 then rows else rows.take batchSize.toNat

def batch (ledger : List (EventLedgerRow δ)) (checkpoint : Option String) (batchSize : ℤ) :
    List (EventLedgerRow δ) :=
  limit batchSize (Feed.ordered EventLedgerRow.position (ledger.filter fun row => Ahead ledger checkpoint row))

def batchHandle (checkpoint : Option String) (rows : List (EventLedgerRow δ)) : String :=
  match rows.getLast? with
  | some row => row.eventId
  | none => checkpoint.getD ""

end

/-! ## The ledger and its consumers -/

/-- A consumer: the handle of the batch it has not acknowledged yet, and the events it has received. -/
structure Consumer (δ : Type) where
  handle : Option String
  received : List (EventLedgerRow δ)

structure LedgerState (δ : Type) where
  ledger : List (EventLedgerRow δ)
  /-- `event_ledger_consumer_checkpoints`. -/
  checkpoints : String → Option String
  consumers : String → Consumer δ

def LedgerState.init (δ : Type) : LedgerState δ := ⟨[], fun _ => none, fun _ => ⟨none, []⟩⟩

inductive LedgerMove (δ : Type)
  | append (tenantId streamId : String) (drafts : List (δ × Draw)) (expectedVersion : Option ℤ)
  | nextBatch (consumerId : String) (batchSize : ℤ)
  | ackBatch (consumerId : String)

namespace LedgerState

variable {δ : Type}

def step (s : LedgerState δ) : LedgerMove δ → LedgerState δ
  | .append tenantId streamId drafts expectedVersion =>
    { s with ledger := (DataPlane.append tenantId streamId drafts expectedVersion s.ledger).1 }
  | .nextBatch consumerId batchSize =>
    let consumer := s.consumers consumerId
    match consumer.handle with
    | some _ => s
    | none =>
      let rows := batch s.ledger (s.checkpoints consumerId) batchSize
      { s with
        consumers := Function.update s.consumers consumerId
          { handle := some (batchHandle (s.checkpoints consumerId) rows)
            received := consumer.received ++ rows } }
  | .ackBatch consumerId =>
    let consumer := s.consumers consumerId
    match consumer.handle with
    | none => s
    | some lastEventId =>
      { s with
        checkpoints := Function.update s.checkpoints consumerId (some lastEventId)
        consumers := Function.update s.consumers consumerId { consumer with handle := none } }

end LedgerState

end ChronoSynth.DataPlane
