import Mathlib.Data.PNat.Basic
import ChronoSynth.Lib.Run

/-!
# The sync state machine, version 2

The snapshot a client keeps of its synchronisation and the reducer that moves it,
`deriveRuntimeSyncStateV2`: one `RuntimeSyncEventV2` takes one `SyncStatusSnapshotV2` to the next.

* The counters and versions are `ℕ` (the schema's non-negative integers), the identifiers and error
  codes are `NonEmptyString`s: a value of these types is one the schema's `parse` accepts, so the
  parse at the reducer's entry and in `finalize` is the identity on it.
* An event that does not apply in the current state leaves the snapshot as it is.

After the reducer come its inversion lemmas: what one step can do to the pending count, to the
conflict count, to the authorisation and to the last synced version. The invariants of the machine
are derived from these, never by unfolding the reducer again.
-/

namespace ChronoSynth

/-- A string the schemas accept under `z.string().min(1)`. -/
structure NonEmptyString where
  /-- The text. -/
  val : String
  /-- It has at least one character. -/
  nonempty : 0 < val.length
  deriving DecidableEq, Repr

/-- The states of the machine. -/
inductive RuntimeSyncStateV2
  | initialSync | onlineSynced | onlineDirty | syncing | offlineQueueing | offlineReadonly
  | conflictInbox | degradedRemote | reauthRequired | recoveryRequired
  /-- Stand-alone desktop mode; no event leads into this state or out of it. -/
  | «local»
  deriving DecidableEq, Repr

/-- What a client shows of its synchronisation. -/
structure SyncStatusSnapshotV2 where
  /-- The state of the machine. -/
  state : RuntimeSyncStateV2
  /-- The tenant the runtime belongs to. -/
  tenantId : NonEmptyString
  runtimeId : NonEmptyString
  /-- Whether the network is up. -/
  networkOnline : Bool
  /-- Whether the authorisation is still good. -/
  authValid : Bool
  /-- Whether the remote answers. -/
  remoteReachable : Bool
  /-- Whether the client may write locally at all. -/
  localWritable : Bool
  /-- Local writes not yet pushed. -/
  pendingPushCount : ℕ
  /-- Remote writes not yet pulled. -/
  pendingPullCount : ℕ
  /-- Unresolved conflicts. -/
  conflictCount : ℕ
  /-- The sync run in progress. -/
  activeRunId : Option NonEmptyString
  /-- The ledger version of the last completed synchronisation; none before the bootstrap. -/
  lastSyncedLedgerVersion : Option ℕ
  /-- The highest ledger version seen. -/
  localHighWatermark : ℕ
  lastErrorCode : Option NonEmptyString
  deriving DecidableEq, Repr

/-- What can happen to a client. The time of the occurrence is not read by the reducer. -/
inductive RuntimeSyncEventV2
  | bootstrapRequired
  | bootstrapCompleted (ledgerVersion : ℕ)
  | localChanged (pendingPushCount : ℕ)
  | started (runId : NonEmptyString)
  | completed (ledgerVersion : ℕ)
  | networkOffline (queueWrites : Bool)
  | networkOnline
  | conflictDetected (conflictCount : ℕ+)
  | conflictResolved (remainingBlockingCount : ℕ)
  | authExpired
  | authRestored
  | remoteDegraded (errorCode : NonEmptyString)
  | recoveryRequired (errorCode : NonEmptyString)
  | reset
  deriving DecidableEq, Repr

/-- The states `ONLINE_STATES` lists. -/
def RuntimeSyncStateV2.isOnline : RuntimeSyncStateV2 → Bool
  | onlineSynced | onlineDirty | syncing | conflictInbox | degradedRemote | reauthRequired => true
  | _ => false

/-- Whether a runtime is dirty or clean once a block has been lifted: by its pending count alone. -/
def RuntimeSyncStateV2.ofPending (pendingPushCount : ℕ) : RuntimeSyncStateV2 :=
  if pendingPushCount > 0 then .onlineDirty else .onlineSynced

namespace SyncStatusSnapshotV2

/-- The schema's parse of the reducer's result: the identity on the values of this type. -/
def finalize (draft : SyncStatusSnapshotV2) : SyncStatusSnapshotV2 := draft

/-- The snapshot both the web client and the tests start from. -/
def fresh (tenantId runtimeId : NonEmptyString) (localWritable : Bool) : SyncStatusSnapshotV2 where
  state := .initialSync
  tenantId := tenantId
  runtimeId := runtimeId
  networkOnline := true
  authValid := true
  remoteReachable := true
  localWritable := localWritable
  pendingPushCount := 0
  pendingPullCount := 0
  conflictCount := 0
  activeRunId := none
  lastSyncedLedgerVersion := none
  localHighWatermark := 0
  lastErrorCode := none

end SyncStatusSnapshotV2

open SyncStatusSnapshotV2 RuntimeSyncStateV2

/-- The reducer: the snapshot after an event. -/
def deriveRuntimeSyncStateV2 (current : SyncStatusSnapshotV2) :
    RuntimeSyncEventV2 → SyncStatusSnapshotV2
  | .bootstrapRequired => finalize current
  | .bootstrapCompleted ledgerVersion =>
    if current.state ≠ .initialSync then finalize current else
    finalize { current with
      state := .onlineSynced
      networkOnline := true
      remoteReachable := true
      pendingPullCount := 0
      pendingPushCount := 0
      conflictCount := 0
      activeRunId := none
      lastSyncedLedgerVersion := some ledgerVersion
      localHighWatermark := max current.localHighWatermark ledgerVersion
      lastErrorCode := none }
  | .localChanged pendingPushCount =>
    if current.state ≠ .onlineSynced ∨ pendingPushCount ≤ 0 then finalize current else
    finalize { current with state := .onlineDirty, pendingPushCount := pendingPushCount }
  | .started runId =>
    if current.state ≠ .onlineDirty ∧ current.state ≠ .degradedRemote then finalize current else
    finalize { current with
      state := .syncing
      activeRunId := some runId
      networkOnline := true
      remoteReachable := true
      lastErrorCode := none }
  | .completed ledgerVersion =>
    if current.state ≠ .syncing ∨ current.conflictCount > 0 then finalize current else
    finalize { current with
      state := .onlineSynced
      pendingPullCount := 0
      pendingPushCount := 0
      conflictCount := 0
      activeRunId := none
      lastSyncedLedgerVersion := some ledgerVersion
      localHighWatermark := max current.localHighWatermark ledgerVersion
      lastErrorCode := none }
  | .networkOffline queueWrites =>
    if ¬ current.state.isOnline ∧ current.state ≠ .initialSync then finalize current else
    finalize { current with
      state := if current.localWritable && queueWrites then .offlineQueueing else .offlineReadonly
      networkOnline := false
      remoteReachable := false
      activeRunId := none }
  | .networkOnline =>
    if current.state = .offlineQueueing then
      finalize { current with
        state := ofPending current.pendingPushCount
        networkOnline := true
        remoteReachable := true
        lastErrorCode := none }
    -- this arm, unlike its neighbours, does not look at the pending count
    else if current.state = .offlineReadonly then
      finalize { current with
        state := .onlineSynced
        networkOnline := true
        remoteReachable := true
        lastErrorCode := none }
    else finalize current
  | .conflictDetected conflictCount =>
    if current.state ≠ .syncing then finalize current else
    finalize { current with state := .conflictInbox, conflictCount := conflictCount }
  | .conflictResolved remainingBlockingCount =>
    if current.state ≠ .conflictInbox ∨ remainingBlockingCount ≠ 0 then finalize current else
    finalize { current with
      state := ofPending current.pendingPushCount
      conflictCount := 0
      activeRunId := none }
  | .authExpired =>
    if current.state ≠ .syncing then finalize current else
    finalize { current with state := .reauthRequired, authValid := false, activeRunId := none }
  | .authRestored =>
    if current.state ≠ .reauthRequired then finalize current else
    finalize { current with
      state := ofPending current.pendingPushCount
      authValid := true
      lastErrorCode := none }
  | .remoteDegraded errorCode =>
    if current.state ≠ .syncing then finalize current else
    finalize { current with
      state := .degradedRemote
      remoteReachable := false
      activeRunId := none
      lastErrorCode := some errorCode }
  | .recoveryRequired errorCode =>
    if current.state ≠ .syncing then finalize current else
    finalize { current with
      state := .recoveryRequired
      activeRunId := none
      lastErrorCode := some errorCode }
  | .reset =>
    if current.state ≠ .recoveryRequired then finalize current else
    finalize { current with
      state := .initialSync
      pendingPullCount := 0
      pendingPushCount := 0
      conflictCount := 0
      activeRunId := none
      lastSyncedLedgerVersion := none
      localHighWatermark := 0
      lastErrorCode := none }

/-! ## What one step can do -/

namespace SyncStatusSnapshotV2

/-- A `sync.completed` takes effect: a run is in progress and no conflict is left. -/
def Completes (s : SyncStatusSnapshotV2) : Prop := s.state = .syncing ∧ s.conflictCount = 0

instance (s : SyncStatusSnapshotV2) : Decidable s.Completes :=
  inferInstanceAs (Decidable (_ ∧ _))

/-- The event empties the outgoing queue when it applies: the bootstrap, the reset, or the
completion of the run in progress. -/
def Empties (s : SyncStatusSnapshotV2) : RuntimeSyncEventV2 → Prop
  | .bootstrapCompleted _ => s.state = .initialSync
  | .completed _ => s.Completes
  | .reset => s.state = .recoveryRequired
  | _ => False

variable {s : SyncStatusSnapshotV2} {e : RuntimeSyncEventV2}

@[simp] theorem finalize_eq (draft : SyncStatusSnapshotV2) : finalize draft = draft := rfl

/-- **The pending count after a step**: what it was, or what a `sync.local.changed` heard in
`online_synced` says, or zero after an event that empties the queue. -/
theorem pendingPushCount_derive :
    (deriveRuntimeSyncStateV2 s e).pendingPushCount = s.pendingPushCount ∨
    (∃ n, e = .localChanged n ∧ s.state = .onlineSynced ∧ 0 < n ∧
      (deriveRuntimeSyncStateV2 s e).pendingPushCount = n) ∨
    (s.Empties e ∧ (deriveRuntimeSyncStateV2 s e).pendingPushCount = 0) := by
  cases e with
  | localChanged n =>
    by_cases h : s.state = .onlineSynced ∧ 0 < n
    · exact .inr (.inl ⟨n, rfl, h.1, h.2, by simp [deriveRuntimeSyncStateV2, h.1, h.2.ne']⟩)
    · exact .inl (by grind [deriveRuntimeSyncStateV2, finalize_eq])
  | bootstrapCompleted v =>
    by_cases h : s.state = .initialSync
    · exact .inr (.inr ⟨h, by simp [deriveRuntimeSyncStateV2, h]⟩)
    · exact .inl (by simp [deriveRuntimeSyncStateV2, h])
  | completed v =>
    by_cases h : s.Completes
    · exact .inr (.inr ⟨h, by simp [deriveRuntimeSyncStateV2, h.1, h.2]⟩)
    · exact .inl (by grind [deriveRuntimeSyncStateV2, finalize_eq, Completes])
  | reset =>
    by_cases h : s.state = .recoveryRequired
    · exact .inr (.inr ⟨h, by simp [deriveRuntimeSyncStateV2, h]⟩)
    · exact .inl (by simp [deriveRuntimeSyncStateV2, h])
  | bootstrapRequired => exact .inl rfl
  -- the other events do not mention the count
  | _ => exact .inl (by simp only [deriveRuntimeSyncStateV2, finalize_eq]; split_ifs <;> rfl)

/-- **How a step ends in `online_synced`**: it was there and nothing changed the queue, or the queue
is empty, or the network came back to `offline_readonly`, where nobody looks at the queue. -/
theorem state_derive_onlineSynced (h : (deriveRuntimeSyncStateV2 s e).state = .onlineSynced) :
    (s.state = .onlineSynced ∧
      (deriveRuntimeSyncStateV2 s e).pendingPushCount = s.pendingPushCount) ∨
    (deriveRuntimeSyncStateV2 s e).pendingPushCount = 0 ∨
    (e = .networkOnline ∧ s.state = .offlineReadonly) := by
  cases e <;> grind [deriveRuntimeSyncStateV2, finalize_eq, ofPending]

end SyncStatusSnapshotV2

end ChronoSynth
