import ChronoSynth.Sync.DeriveStateV2

/-!
# The sync state machine, version 1

The snapshot of the first version, with what its user may do in it, and its reducer
`deriveRuntimeSyncState`.

* The values of `SyncStatusSnapshotV1` are those its schema accepts, as in version 2. An event may carry
  an empty error message, which the schema of the snapshot refuses: there the reducer throws.
* A snapshot keeps its state while the network is down if it is in one of `preservedOffline`; whether the
  network is up is a field of its own.

`step` is what its callers see: the snapshot stays where the reducer throws.
-/

namespace ChronoSynth

inductive RuntimeSyncStateV1
  | unconfigured | disabled | idle | pulling | merging | pushing | paused | offline | conflicted | error
  deriving DecidableEq, Repr

structure SyncCapabilitiesV1 where
  canConfigure : Bool
  canStartSync : Bool
  canPause : Bool
  canResume : Bool
  canResolveConflict : Bool
  canRetry : Bool
  canDisable : Bool
  deriving DecidableEq, Repr

structure SyncStatusSnapshotV1 where
  state : RuntimeSyncStateV1
  capabilities : SyncCapabilitiesV1
  syncEnabled : Bool
  networkOnline : Bool
  pendingPullCount : ℕ
  pendingPushCount : ℕ
  conflictCount : ℕ
  lastSyncStartedAt : Option ℕ
  lastSyncCompletedAt : Option ℕ
  lastErrorCode : Option NonEmptyString
  lastErrorMessage : Option NonEmptyString
  activeRunId : Option NonEmptyString
  deriving DecidableEq, Repr

/-- The time of an occurrence is there where the reducer reads it. -/
inductive RuntimeSyncEvent
  | configured (enabled : Bool)
  | disabled
  | started (runId : NonEmptyString) (occurredAt : ℕ)
  | pullCompleted (pendingPullCount : ℕ)
  | mergeCompleted (pendingPushCount : ℕ)
  | pushCompleted (occurredAt : ℕ)
  | conflictDetected (conflictCount : ℕ+)
  | conflictResolved
  | paused
  | resumed
  | networkOffline
  | networkOnline
  | failed (errorCode : NonEmptyString) (errorMessage : Option String)
  | reset
  deriving DecidableEq, Repr

/-- What the schema refuses: a text that is too short, with its path. -/
inductive SchemaError
  | tooSmall (path : String)
  deriving DecidableEq, Repr

namespace RuntimeSyncStateV1

def resolveBaseState (syncEnabled networkOnline : Bool) : RuntimeSyncStateV1 :=
  if !syncEnabled then .disabled else if networkOnline then .idle else .offline

/-- A retry of a failed run is a `sync.started`. -/
def startable : RuntimeSyncStateV1 → Bool
  | idle | error => true
  | _ => false

def pausable : RuntimeSyncStateV1 → Bool
  | idle | pulling | merging | pushing => true
  | _ => false

def failable : RuntimeSyncStateV1 → Bool
  | pulling | merging | pushing | conflicted => true
  | _ => false

def preservedOffline : RuntimeSyncStateV1 → Bool
  | unconfigured | disabled | paused | conflicted | error => true
  | _ => false

/-- A run is in progress. -/
def running : RuntimeSyncStateV1 → Bool
  | pulling | merging | pushing => true
  | _ => false

end RuntimeSyncStateV1

open RuntimeSyncStateV1

def deriveCapabilities (state : RuntimeSyncStateV1) (syncEnabled networkOnline : Bool)
    (conflictCount : ℕ) : SyncCapabilitiesV1 where
  canConfigure := state = .unconfigured ∨ state = .disabled
  canStartSync := state = .idle ∧ syncEnabled ∧ networkOnline
  canPause := (state = .idle ∨ state = .pulling ∨ state = .merging ∨ state = .pushing) ∧ syncEnabled
  canResume := state = .paused
  canResolveConflict := state = .conflicted ∧ conflictCount > 0
  canRetry := state = .error ∧ syncEnabled ∧ networkOnline
  canDisable := state ≠ .unconfigured ∧ state ≠ .disabled

namespace SyncStatusSnapshotV1

/-- The capabilities are derived from the rest. -/
def finalize (draft : SyncStatusSnapshotV1) : SyncStatusSnapshotV1 :=
  { draft with capabilities :=
      deriveCapabilities draft.state draft.syncEnabled draft.networkOnline draft.conflictCount }

end SyncStatusSnapshotV1

open SyncStatusSnapshotV1

def parseErrorMessage : Option String → Except SchemaError (Option NonEmptyString)
  | none => .ok none
  | some text =>
    if h : 0 < text.length then .ok (some ⟨text, h⟩) else .error (.tooSmall "lastErrorMessage")

/-- The reducer: the snapshot after an event. -/
def deriveRuntimeSyncState (current : SyncStatusSnapshotV1) :
    RuntimeSyncEvent → Except SchemaError SyncStatusSnapshotV1
  | .configured enabled =>
    return finalize { current with
      state := resolveBaseState enabled current.networkOnline
      syncEnabled := enabled
      pendingPullCount := 0
      pendingPushCount := 0
      conflictCount := 0
      lastErrorCode := none
      lastErrorMessage := none
      activeRunId := none }
  | .disabled =>
    return finalize { current with
      state := .disabled
      syncEnabled := false
      pendingPullCount := 0
      pendingPushCount := 0
      conflictCount := 0
      activeRunId := none }
  | .started runId occurredAt =>
    if !current.syncEnabled || !current.networkOnline || !current.state.startable then
      return finalize current
    else return finalize { current with
      state := .pulling
      activeRunId := some runId
      lastSyncStartedAt := some occurredAt
      lastErrorCode := none
      lastErrorMessage := none }
  | .pullCompleted pendingPullCount =>
    if current.state ≠ .pulling then return finalize current
    else return finalize { current with state := .merging, pendingPullCount := pendingPullCount }
  | .mergeCompleted pendingPushCount =>
    if current.state ≠ .merging then return finalize current
    else return finalize { current with
      state := .pushing
      pendingPullCount := 0
      pendingPushCount := pendingPushCount }
  | .pushCompleted occurredAt =>
    if current.state ≠ .pushing then return finalize current
    else return finalize { current with
      state := resolveBaseState current.syncEnabled current.networkOnline
      pendingPushCount := 0
      conflictCount := 0
      lastSyncCompletedAt := some occurredAt
      lastErrorCode := none
      lastErrorMessage := none
      activeRunId := none }
  | .conflictDetected conflictCount =>
    if current.state ≠ .merging ∧ current.state ≠ .pushing then return finalize current
    else return finalize { current with state := .conflicted, conflictCount := conflictCount }
  | .conflictResolved =>
    if current.state ≠ .conflicted then return finalize current
    else return finalize { current with
      state := resolveBaseState current.syncEnabled current.networkOnline
      conflictCount := 0
      activeRunId := none }
  -- the run in progress stays noted in a paused snapshot
  | .paused =>
    if !current.state.pausable || !current.syncEnabled then return finalize current
    else return finalize { current with state := .paused }
  | .resumed =>
    if current.state ≠ .paused then return finalize current
    else return finalize { current with
      state := resolveBaseState current.syncEnabled current.networkOnline }
  | .networkOffline =>
    return finalize { current with
      networkOnline := false
      state := if current.state.preservedOffline then current.state else .offline }
  | .networkOnline =>
    return finalize { current with
      networkOnline := true
      state := if current.state = .offline then resolveBaseState current.syncEnabled true
        else current.state }
  | .failed errorCode errorMessage =>
    if !current.state.failable then return finalize current
    else do
      let lastErrorMessage ← parseErrorMessage errorMessage
      return finalize { current with
        state := .error
        activeRunId := none
        lastErrorCode := some errorCode
        lastErrorMessage := lastErrorMessage }
  | .reset =>
    return finalize { current with
      state := .unconfigured
      syncEnabled := false
      pendingPullCount := 0
      pendingPushCount := 0
      conflictCount := 0
      lastSyncStartedAt := none
      lastSyncCompletedAt := none
      lastErrorCode := none
      lastErrorMessage := none
      activeRunId := none }

namespace SyncStatusSnapshotV1

/-- One event, for a caller who keeps the snapshot where the reducer throws. -/
def step (s : SyncStatusSnapshotV1) (e : RuntimeSyncEvent) : SyncStatusSnapshotV1 :=
  match deriveRuntimeSyncState s e with
  | .ok s' => s'
  | .error _ => s

/-- The snapshot before anything is configured. -/
def fresh (networkOnline : Bool) : SyncStatusSnapshotV1 where
  state := .unconfigured
  capabilities := deriveCapabilities .unconfigured false networkOnline 0
  syncEnabled := false
  networkOnline := networkOnline
  pendingPullCount := 0
  pendingPushCount := 0
  conflictCount := 0
  lastSyncStartedAt := none
  lastSyncCompletedAt := none
  lastErrorCode := none
  lastErrorMessage := none
  activeRunId := none

/-! ## What one step can do -/

variable {s : SyncStatusSnapshotV1}

section
variable (draft : SyncStatusSnapshotV1)

@[simp] theorem finalize_state : (finalize draft).state = draft.state := rfl

@[simp] theorem finalize_syncEnabled : (finalize draft).syncEnabled = draft.syncEnabled := rfl

@[simp] theorem finalize_networkOnline : (finalize draft).networkOnline = draft.networkOnline := rfl

@[simp] theorem finalize_pendingPushCount :
    (finalize draft).pendingPushCount = draft.pendingPushCount := rfl

@[simp] theorem finalize_conflictCount : (finalize draft).conflictCount = draft.conflictCount := rfl

@[simp] theorem finalize_activeRunId : (finalize draft).activeRunId = draft.activeRunId := rfl

end

theorem step_failed (errorCode : NonEmptyString) (errorMessage : Option String) :
    s.step (.failed errorCode errorMessage) = s ∨
    s.step (.failed errorCode errorMessage) = finalize s ∨
    s.state.failable ∧ ∃ lastErrorMessage, s.step (.failed errorCode errorMessage) =
      finalize { s with
        state := .error
        activeRunId := none
        lastErrorCode := some errorCode
        lastErrorMessage := lastErrorMessage } := by
  rw [step, deriveRuntimeSyncState]
  by_cases hf : s.state.failable
  · simp only [hf, Bool.not_true, Bool.false_eq_true, if_false]
    cases parseErrorMessage errorMessage with
    | ok lastErrorMessage => exact .inr (.inr ⟨trivial, lastErrorMessage, rfl⟩)
    | error err => exact .inl rfl
  · simp only [hf, Bool.not_false, if_true]
    exact .inr (.inl rfl)

end SyncStatusSnapshotV1

end ChronoSynth
