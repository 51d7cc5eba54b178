import ChronoSynth.Sync.Blocks
import ChronoSynth.Sync.DeriveState

/-!
# From version 1 to version 2

`mapV1ToV2Snapshot` shows a version 1 snapshot to a client of version 2, field by field. A version 2
snapshot is **proper** if its network flag, its run and its counters go with its state (`Proper`).

The translation gives an improper one where the two machines differ about what an event leaves behind:

* version 1 keeps a paused or failed or conflicted snapshot as it is when the network goes, while every
  state of version 2 but the offline ones is online;
* it keeps the run noted when a running snapshot is paused or goes offline;
* it keeps what is waiting to be pushed when conflicts are resolved, and `idle` becomes `online_synced`
  whatever is waiting.

`Strays` lists these events. Along a version 1 run from an unconfigured snapshot, the translation is
proper everywhere exactly when no event strays (`mapV1_proper_iff`): the invariant is that what is paused
or offline has nothing waiting.
-/

namespace ChronoSynth

open RuntimeSyncStateV1 SyncStatusSnapshotV1

def mapV1State (v1 : RuntimeSyncStateV1) (pendingPushCount : ℕ) : RuntimeSyncStateV2 :=
  match v1 with
  | .idle => .onlineSynced
  | .pulling | .merging | .pushing => .syncing
  | .offline => if pendingPushCount > 0 then .offlineQueueing else .offlineReadonly
  | .conflicted => .conflictInbox
  | .error => .degradedRemote
  | .unconfigured | .disabled | .paused => .initialSync

def mapV1ToV2Snapshot (v1 : SyncStatusSnapshotV1) : SyncStatusSnapshotV2 where
  state := mapV1State v1.state v1.pendingPushCount
  tenantId := ⟨"legacy-tenant", by decide⟩
  runtimeId := ⟨"legacy-runtime", by decide⟩
  networkOnline := v1.networkOnline
  authValid := v1.state ≠ .disabled ∧ v1.state ≠ .unconfigured
  remoteReachable := v1.networkOnline ∧ v1.state ≠ .error
  localWritable := v1.state ≠ .disabled ∧ v1.state ≠ .unconfigured
  pendingPushCount := v1.pendingPushCount
  pendingPullCount := v1.pendingPullCount
  conflictCount := v1.conflictCount
  activeRunId := v1.activeRunId
  lastSyncedLedgerVersion := none
  localHighWatermark := 0
  lastErrorCode := v1.lastErrorCode

/-! ## Proper snapshots of version 2 -/

namespace SyncStatusSnapshotV2

/-- Network, run and conflicts go with the state. -/
structure Framed (s : SyncStatusSnapshotV2) : Prop where
  network : s.networkOnline = false ↔ s.state.Offline
  /-- A run is noted only while it is in progress or waits for its conflicts. -/
  run : s.activeRunId ≠ none → s.state = .syncing ∨ s.state = .conflictInbox
  inbox : s.state = .conflictInbox → 1 ≤ s.conflictCount

/-- And what is synced has nothing left to do. -/
structure Proper (s : SyncStatusSnapshotV2) : Prop extends s.Framed where
  /-- Nothing waits to be pushed and no conflict is left. -/
  synced : s.state = .onlineSynced → s.pendingPushCount = 0 ∧ s.conflictCount = 0

variable {s : SyncStatusSnapshotV2} {e : RuntimeSyncEventV2} {es : List RuntimeSyncEventV2}

theorem Framed.derive (h : s.Framed) : (deriveRuntimeSyncStateV2 s e).Framed := by
  obtain ⟨network, run, inbox⟩ := h
  cases e with
  | conflictDetected conflictCount =>
    have := conflictCount.pos
    constructor <;> grind [deriveRuntimeSyncStateV2, RuntimeSyncStateV2.Offline, finalize_eq]
  | _ =>
    constructor <;> grind [deriveRuntimeSyncStateV2, RuntimeSyncStateV2.Offline, finalize_eq,
      RuntimeSyncStateV2.ofPending, RuntimeSyncStateV2.isOnline]

theorem always_framed (tenantId runtimeId : NonEmptyString) (localWritable : Bool) :
    Always deriveRuntimeSyncStateV2 Framed (fresh tenantId runtimeId localWritable) es := by
  refine Always.of_inductive ⟨?_, ?_, ?_⟩ fun s e h => h.derive
  · simp [fresh, RuntimeSyncStateV2.Offline]
  · simp [fresh]
  · simp [fresh]

end SyncStatusSnapshotV2

namespace SyncStatusSnapshotV1

variable {s : SyncStatusSnapshotV1} {e : RuntimeSyncEvent} {es : List RuntimeSyncEvent}

/-! ## What is proper, in the words of version 1 -/

theorem mapV1_offline : (mapV1ToV2Snapshot s).state.Offline ↔ s.state = .offline := by
  rw [mapV1ToV2Snapshot, RuntimeSyncStateV2.Offline]
  cases s.state <;> simp [mapV1State]
  exact em' _

theorem mapV1_syncing : (mapV1ToV2Snapshot s).state = .syncing ↔ s.state.running := by
  rw [mapV1ToV2Snapshot]
  cases s.state <;> simp [mapV1State, running]
  split <;> simp

theorem mapV1_conflictInbox : (mapV1ToV2Snapshot s).state = .conflictInbox ↔ s.state = .conflicted := by
  rw [mapV1ToV2Snapshot]
  cases s.state <;> simp [mapV1State]
  split <;> simp

theorem mapV1_onlineSynced : (mapV1ToV2Snapshot s).state = .onlineSynced ↔ s.state = .idle := by
  rw [mapV1ToV2Snapshot]
  cases s.state <;> simp [mapV1State]
  split <;> simp

theorem proper_mapV1_iff :
    (mapV1ToV2Snapshot s).Proper ↔
      (s.networkOnline = false ↔ s.state = .offline) ∧
      (s.activeRunId ≠ none → s.state.running ∨ s.state = .conflicted) ∧
      (s.state = .conflicted → 1 ≤ s.conflictCount) ∧
      (s.state = .idle → s.pendingPushCount = 0 ∧ s.conflictCount = 0) := by
  rw [← mapV1_offline, ← mapV1_syncing, ← mapV1_conflictInbox, ← mapV1_onlineSynced]
  constructor
  · rintro ⟨⟨network, run, inbox⟩, synced⟩
    exact ⟨network, run, inbox, synced⟩
  · rintro ⟨network, run, inbox, synced⟩
    exact ⟨⟨network, run, inbox⟩, synced⟩

/-! ## The steps that stray -/

/-- The event leads to a snapshot whose translation is improper. -/
def Strays (s : SyncStatusSnapshotV1) : RuntimeSyncEvent → Prop
  -- what is switched off without network stays without it
  | .configured enabled => enabled = false ∧ s.state = .offline
  | .disabled | .reset => s.state = .offline
  | .conflictResolved => s.state = .conflicted ∧ 0 < s.pendingPushCount
  | .paused => s.state.running
  | .networkOffline => s.state ≠ .idle ∧ s.state ≠ .offline
  | _ => False

instance : Decidable (s.Strays e) :=
  match e with
  | .configured _ => inferInstanceAs (Decidable (_ ∧ _))
  | .disabled | .reset => inferInstanceAs (Decidable (s.state = .offline))
  | .conflictResolved => inferInstanceAs (Decidable (_ ∧ 0 < s.pendingPushCount))
  | .paused => inferInstanceAs (Decidable s.state.running)
  | .networkOffline => inferInstanceAs (Decidable (_ ∧ _))
  | .started .. | .pullCompleted _ | .mergeCompleted _ | .pushCompleted _ | .conflictDetected _ | .resumed
  | .networkOnline | .failed .. => inferInstanceAs (Decidable False)

/-- The invariant, state by state: who has the network and a run, and who has nothing waiting. -/
def Within (s : SyncStatusSnapshotV1) : Prop :=
  match s.state with
  | .unconfigured | .disabled => s.networkOnline ∧ s.activeRunId = none
  | .idle | .paused =>
    s.syncEnabled ∧ s.networkOnline ∧ s.activeRunId = none ∧ s.pendingPushCount = 0 ∧
      s.conflictCount = 0
  | .pulling | .merging | .pushing => s.syncEnabled ∧ s.networkOnline ∧ s.activeRunId ≠ none
  | .offline =>
    s.syncEnabled ∧ s.networkOnline = false ∧ s.activeRunId = none ∧ s.pendingPushCount = 0 ∧
      s.conflictCount = 0
  | .conflicted => s.syncEnabled ∧ s.networkOnline ∧ 1 ≤ s.conflictCount
  | .error => s.syncEnabled ∧ s.networkOnline ∧ s.activeRunId = none

theorem within_unconfigured (hs : s.state = .unconfigured) :
    s.Within ↔ s.networkOnline ∧ s.activeRunId = none := by
  simp [Within, hs]

theorem Within.proper (h : s.Within) : (mapV1ToV2Snapshot s).Proper := by
  rw [proper_mapV1_iff]
  revert h
  cases hs : s.state <;> simp +contextual [Within, hs, running]

/-- **Step lemma.** -/
theorem Within.step (h : s.Within) (he : ¬ s.Strays e) : (s.step e).Within := by
  cases e with
  | failed errorCode errorMessage =>
    obtain he | he | ⟨hf, m, he⟩ := step_failed (s := s) errorCode errorMessage
    · rwa [he]
    · rwa [he]
    · rw [he]
      revert h hf
      cases hs : s.state <;> simp +contextual [Within, hs, failable]
  | configured enabled =>
    simp only [SyncStatusSnapshotV1.step, deriveRuntimeSyncState, pure, Except.pure]
    revert h he
    cases enabled <;> cases hn : s.networkOnline <;> cases hs : s.state <;>
      simp [Within, Strays, resolveBaseState, hs, hn]
  | disabled | reset =>
    simp only [SyncStatusSnapshotV1.step, deriveRuntimeSyncState, pure, Except.pure]
    revert h he
    cases hs : s.state <;> simp +contextual [Within, Strays, hs]
  | networkOffline =>
    simp only [SyncStatusSnapshotV1.step, deriveRuntimeSyncState, pure, Except.pure]
    revert h he
    cases hs : s.state <;> simp +contextual [Within, Strays, hs, preservedOffline]
  | networkOnline =>
    simp only [SyncStatusSnapshotV1.step, deriveRuntimeSyncState, pure, Except.pure]
    revert h
    cases hs : s.state <;> simp +contextual [Within, hs, resolveBaseState]
  | conflictDetected conflictCount =>
    have hc : 1 ≤ (conflictCount : ℕ) := conflictCount.pos
    simp only [SyncStatusSnapshotV1.step, deriveRuntimeSyncState, pure, Except.pure]
    split_ifs with hg
    · exact h
    · revert h hg
      cases hs : s.state <;> simp +contextual [Within, hs, hc]
  -- the other events do nothing unless their guard says in which state they are
  | _ =>
    simp only [SyncStatusSnapshotV1.step, deriveRuntimeSyncState, pure, Except.pure]
    split_ifs with hg
    · exact h
    · revert h he hg
      cases hs : s.state <;>
        simp +contextual [Within, Strays, hs, startable, pausable, running, resolveBaseState]

theorem Within.not_strays (h : s.Within) (hp : (mapV1ToV2Snapshot (s.step e)).Proper) :
    ¬ s.Strays e := by
  intro he
  rw [proper_mapV1_iff] at hp
  revert h he hp
  cases e with
  | configured enabled =>
    cases hs : s.state <;>
      simp +contextual [Within, Strays, SyncStatusSnapshotV1.step, deriveRuntimeSyncState, pure,
        Except.pure, finalize, resolveBaseState, hs]
  | disabled | reset | paused | conflictResolved | networkOffline =>
    cases hs : s.state <;>
      simp +contextual [Within, Strays, SyncStatusSnapshotV1.step, deriveRuntimeSyncState, pure,
        Except.pure, finalize, resolveBaseState, pausable, preservedOffline, running, hs]
  | _ => exact fun _ _ he => he

/-! ## Whole runs -/

/-- **Version 1 in version 2, exactly.** From an unconfigured snapshot, every snapshot of a run has a
proper translation if and only if the first one has the network and no run, and no event strays. -/
theorem mapV1_proper_iff (hs : s.state = .unconfigured) (es : List RuntimeSyncEvent) :
    Always step (fun t => (mapV1ToV2Snapshot t).Proper) s es ↔
      s.networkOnline ∧ s.activeRunId = none ∧ Along step (fun t e => ¬ t.Strays e) s es := by
  constructor
  · intro h
    obtain ⟨network, run, -, -⟩ := proper_mapV1_iff.1 h.init
    have hn : s.networkOnline := by simpa [hs] using network
    have hr : s.activeRunId = none := by
      by_contra hr
      simpa [hs, running] using run hr
    have h0 : s.Within := (within_unconfigured hs).2 ⟨hn, hr⟩
    exact ⟨hn, hr, (always_iff_along h0 (fun t h => h.proper) (fun t e h he => h.step he)
      (fun t e h hp => h.not_strays hp)).1 h⟩
  · rintro ⟨hn, hr, h⟩
    have h0 : s.Within := (within_unconfigured hs).2 ⟨hn, hr⟩
    exact (Always.of_step h0 (fun t e h he => h.step he) h).mono fun t h => h.proper

/-- A run that fails and is retried, and a pause between two runs. -/
theorem retried_run_proper :
    Always step (fun t => (mapV1ToV2Snapshot t).Proper) (fresh true)
      [.configured true, .started ⟨"r", by decide⟩ 1, .pullCompleted 2, .failed ⟨"e", by decide⟩ none,
        .started ⟨"r", by decide⟩ 2, .pullCompleted 2, .mergeCompleted 3, .pushCompleted 4, .paused,
        .resumed, .networkOffline] :=
  (mapV1_proper_iff rfl _).2 ⟨rfl, rfl, by decide +kernel⟩

/-- A run is paused while it pushes and resumed: the translation is `online_synced`, with its run and
three pushes to go. -/
theorem paused_run_synced :
    ¬ ∀ (s : SyncStatusSnapshotV1) (es : List RuntimeSyncEvent), s.state = .unconfigured →
      Always step (fun t => (mapV1ToV2Snapshot t).Proper) s es := by
  intro h
  have hp := (h (fresh true) [.configured true, .started ⟨"r", by decide⟩ 1, .pullCompleted 2,
    .mergeCompleted 3, .paused, .resumed] rfl).last
  exact absurd (hp.synced (by decide +kernel)).1 (by decide +kernel)

end SyncStatusSnapshotV1

end ChronoSynth
