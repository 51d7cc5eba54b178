import ChronoSynth.Lib.Run
import ChronoSynth.Sync.DeriveState

/-!
# What a version 1 snapshot says of itself

A snapshot of version 1 carries, beside its state, a run in progress, a count of conflicts and what its user
may do. It is **sound** (`Sound`) if these go with the state: no run is noted where none is in progress,
conflicts are counted in `conflicted` and nowhere else, and an action is offered exactly where the event
behind it takes effect.

The flags are exact in every snapshot of a run from an unconfigured one. The run and the count are not:

* a run in progress stays noted when the network goes, and `offline` has a run;
* it stays noted in `paused`, which may have one, and is not taken out when the snapshot is resumed;
* a failure in `conflicted` takes the run out and leaves the count.

`LeavesNothing` says that a step is none of the three, and `sound_iff` that this is exact.
-/

namespace ChronoSynth

open RuntimeSyncStateV1

/-- No run is in progress and none waits. -/
def RuntimeSyncStateV1.atRest : RuntimeSyncStateV1 → Bool
  | idle | offline | disabled | unconfigured | error => true
  | _ => false

namespace SyncStatusSnapshotV1

/-- The event leads into the state. -/
def Enters (s : SyncStatusSnapshotV1) (e : RuntimeSyncEvent) (st : RuntimeSyncStateV1) : Prop :=
  s.state ≠ st ∧ (s.step e).state = st

/-- The event leads out of the state. -/
def Leaves (s : SyncStatusSnapshotV1) (e : RuntimeSyncEvent) (st : RuntimeSyncStateV1) : Prop :=
  s.state = st ∧ (s.step e).state ≠ st

/-- What is offered is what takes effect. -/
structure Exact (s : SyncStatusSnapshotV1) : Prop where
  /-- A run is started from `idle` or, as a retry, from `error`. -/
  start : ∀ runId occurredAt, s.Enters (.started runId occurredAt) .pulling ↔
    s.capabilities.canStartSync ∨ s.capabilities.canRetry
  pause : s.Enters .paused .paused ↔ s.capabilities.canPause
  resume : s.Leaves .resumed .paused ↔ s.capabilities.canResume
  resolve : s.Leaves .conflictResolved .conflicted ↔ s.capabilities.canResolveConflict

/-- Run, conflicts, switch and capabilities go with the state. -/
structure Sound (s : SyncStatusSnapshotV1) : Prop extends s.Exact where
  run : s.state.atRest → s.activeRunId = none
  conflicts : 0 < s.conflictCount ↔ s.state = .conflicted
  enabled : s.state ≠ .unconfigured → s.state ≠ .disabled → s.syncEnabled

/-- The snapshot has no run, counts no conflict and offers none of the actions of a run. -/
structure Unstarted (s : SyncStatusSnapshotV1) : Prop where
  run : s.activeRunId = none
  conflicts : s.conflictCount = 0
  start : s.capabilities.canStartSync = false
  retry : s.capabilities.canRetry = false
  pause : s.capabilities.canPause = false
  resume : s.capabilities.canResume = false
  resolve : s.capabilities.canResolveConflict = false

/-- The step leaves no run behind and no conflicts: the network does not go while a run is in progress, what is
resumed was paused without a run, and no run fails in `conflicted`. -/
def LeavesNothing (s : SyncStatusSnapshotV1) : RuntimeSyncEvent → Prop
  | .networkOffline => ¬ s.state.running
  | .resumed => s.state = .paused → s.activeRunId = none
  -- an empty error message is refused, and nothing happens
  | .failed _ errorMessage => s.state = .conflicted → errorMessage = some ""
  | _ => True

instance (s : SyncStatusSnapshotV1) (e : RuntimeSyncEvent) : Decidable (s.LeavesNothing e) := by
  cases e <;> unfold LeavesNothing <;> infer_instance

variable {s : SyncStatusSnapshotV1} {e : RuntimeSyncEvent}

/-! ## The flags -/

/-- The flags of a run are those derived from the rest. -/
structure Flagged (s : SyncStatusSnapshotV1) : Prop where
  start : s.capabilities.canStartSync = (finalize s).capabilities.canStartSync
  retry : s.capabilities.canRetry = (finalize s).capabilities.canRetry
  pause : s.capabilities.canPause = (finalize s).capabilities.canPause
  resume : s.capabilities.canResume = (finalize s).capabilities.canResume
  resolve : s.capabilities.canResolveConflict = (finalize s).capabilities.canResolveConflict

theorem flagged_finalize (draft : SyncStatusSnapshotV1) : (finalize draft).Flagged :=
  ⟨rfl, rfl, rfl, rfl, rfl⟩

/-- A step that is not refused ends in `finalize`. -/
theorem step_finalized (s : SyncStatusSnapshotV1) (e : RuntimeSyncEvent) :
    s.step e = s ∨ ∃ draft, s.step e = finalize draft := by
  cases e with
  | failed errorCode errorMessage =>
    obtain he | he | ⟨-, m, he⟩ := step_failed (s := s) errorCode errorMessage
    · exact .inl he
    · exact .inr ⟨_, he⟩
    · exact .inr ⟨_, he⟩
  | configured enabled | disabled | networkOffline | networkOnline | reset => exact .inr ⟨_, rfl⟩
  | _ =>
    simp only [step, deriveRuntimeSyncState, pure, Except.pure]
    right
    split_ifs <;> exact ⟨_, rfl⟩

theorem Flagged.step (h : s.Flagged) : (s.step e).Flagged := by
  obtain he | ⟨draft, he⟩ := step_finalized s e
  · rwa [he]
  · rw [he]
    exact flagged_finalize draft

/-- The table of capabilities and the guards of the reducer agree, but for the conflicts to be resolved. -/
theorem Flagged.deciding_iff (h : s.Flagged) :
    s.Exact ↔ (s.state = .conflicted → 0 < s.conflictCount) := by
  obtain ⟨start, retry, pause, resume, resolve⟩ := h
  have hstart : ∀ runId occurredAt, s.Enters (.started runId occurredAt) .pulling ↔
      s.capabilities.canStartSync ∨ s.capabilities.canRetry := by
    intro runId occurredAt
    rw [start, retry]
    cases hs : s.state <;> cases hn : s.networkOnline <;> cases hy : s.syncEnabled <;>
      simp [Enters, SyncStatusSnapshotV1.step, deriveRuntimeSyncState, pure, Except.pure, finalize,
        deriveCapabilities, startable, hs, hn, hy]
  have hpause : s.Enters .paused .paused ↔ s.capabilities.canPause := by
    rw [pause]
    cases hs : s.state <;> cases hy : s.syncEnabled <;>
      simp [Enters, SyncStatusSnapshotV1.step, deriveRuntimeSyncState, pure, Except.pure, finalize,
        deriveCapabilities, pausable, hs, hy]
  have hresume : s.Leaves .resumed .paused ↔ s.capabilities.canResume := by
    rw [resume]
    cases hs : s.state <;> cases hn : s.networkOnline <;> cases hy : s.syncEnabled <;>
      simp [Leaves, SyncStatusSnapshotV1.step, deriveRuntimeSyncState, pure, Except.pure, finalize,
        deriveCapabilities, resolveBaseState, hs, hn, hy]
  have hresolve : s.Leaves .conflictResolved .conflicted ↔ s.state = .conflicted := by
    cases hs : s.state <;> cases hn : s.networkOnline <;> cases hy : s.syncEnabled <;>
      simp [Leaves, SyncStatusSnapshotV1.step, deriveRuntimeSyncState, pure, Except.pure, finalize,
        resolveBaseState, hs, hn, hy]
  have hflag : s.capabilities.canResolveConflict ↔ s.state = .conflicted ∧ 0 < s.conflictCount := by
    rw [resolve]
    simp [finalize, deriveCapabilities]
  constructor
  · intro hx hs
    exact (hflag.1 (hx.resolve.1 (hresolve.2 hs))).2
  · intro hc
    refine ⟨hstart, hpause, hresume, ?_⟩
    rw [hresolve, hflag]
    exact ⟨fun hs => ⟨hs, hc hs⟩, And.left⟩

/-! ## The run and the count -/

/-- The invariant, state by state: who is switched on, who has a run and who counts conflicts. -/
def Noted (s : SyncStatusSnapshotV1) : Prop :=
  match s.state with
  | .unconfigured | .disabled => s.activeRunId = none ∧ s.conflictCount = 0
  | .idle | .offline | .error => s.syncEnabled ∧ s.activeRunId = none ∧ s.conflictCount = 0
  | .pulling | .merging | .pushing => s.syncEnabled ∧ s.activeRunId ≠ none ∧ s.conflictCount = 0
  | .paused => s.syncEnabled ∧ s.conflictCount = 0
  | .conflicted => s.syncEnabled ∧ 0 < s.conflictCount

theorem Noted.sound (h : s.Noted) (hf : s.Flagged) : s.Sound := by
  have hx : s.Exact := by
    refine hf.deciding_iff.2 fun hs => ?_
    simp only [Noted, hs] at h
    exact h.2
  refine { hx with run := ?_, conflicts := ?_, enabled := ?_ }
  all_goals
    revert h
    cases hs : s.state <;> simp +contextual [Noted, atRest, hs]

theorem step_refused {errorCode : NonEmptyString} (hf : s.state.failable) :
    s.step (.failed errorCode (some "")) = s := by
  simp [SyncStatusSnapshotV1.step, deriveRuntimeSyncState, hf, parseErrorMessage, bind, Except.bind]

/-- Any other failure is not. -/
theorem step_taken {errorCode : NonEmptyString} {errorMessage : Option String} (hf : s.state.failable)
    (hm : errorMessage ≠ some "") :
    (s.step (.failed errorCode errorMessage)).state = .error ∧
    (s.step (.failed errorCode errorMessage)).conflictCount = s.conflictCount := by
  have hp : ∃ m, parseErrorMessage errorMessage = .ok m := by
    cases errorMessage with
    | none => exact ⟨none, rfl⟩
    | some text =>
      have ht : 0 < text.length := by
        rw [Nat.pos_iff_ne_zero, Ne, String.length_eq_zero_iff]
        exact fun h => hm (congrArg some h)
      exact ⟨some ⟨text, ht⟩, by simp [parseErrorMessage, ht]⟩
  obtain ⟨m, hm⟩ := hp
  simp [SyncStatusSnapshotV1.step, deriveRuntimeSyncState, hf, hm, bind, Except.bind, pure,
    Except.pure]

/-- **Step lemma.** -/
theorem Noted.step (h : s.Noted) (he : s.LeavesNothing e) : (s.step e).Noted := by
  cases e with
  | failed errorCode errorMessage =>
    obtain hk | hk | ⟨hf, m, hk⟩ := step_failed (s := s) errorCode errorMessage
    · rwa [hk]
    · rwa [hk]
    · by_cases hs : s.state = .conflicted
      · rwa [he hs, step_refused hf]
      · rw [hk]
        revert h hf hs
        cases hs : s.state <;> simp +contextual [Noted, failable, hs]
  | configured enabled =>
    simp only [SyncStatusSnapshotV1.step, deriveRuntimeSyncState, pure, Except.pure]
    cases enabled <;> cases hn : s.networkOnline <;> simp [Noted, resolveBaseState]
  | disabled | reset =>
    simp only [SyncStatusSnapshotV1.step, deriveRuntimeSyncState, pure, Except.pure]
    simp [Noted]
  | networkOffline =>
    simp only [SyncStatusSnapshotV1.step, deriveRuntimeSyncState, pure, Except.pure]
    revert h he
    cases hs : s.state <;> simp +contextual [Noted, LeavesNothing, running, hs, preservedOffline]
  | networkOnline =>
    simp only [SyncStatusSnapshotV1.step, deriveRuntimeSyncState, pure, Except.pure]
    revert h
    cases hs : s.state <;> simp +contextual [Noted, hs, resolveBaseState]
  | conflictDetected conflictCount =>
    have hc : 0 < (conflictCount : ℕ) := conflictCount.pos
    simp only [SyncStatusSnapshotV1.step, deriveRuntimeSyncState, pure, Except.pure]
    split_ifs with hg
    · exact h
    · revert h hg
      cases hs : s.state <;> simp +contextual [Noted, hs, hc]
  -- the other events do nothing unless their guard says in which state they are
  | _ =>
    simp only [SyncStatusSnapshotV1.step, deriveRuntimeSyncState, pure, Except.pure]
    split_ifs with hg
    · exact h
    · revert h he hg
      cases hs : s.state <;> cases hn : s.networkOnline <;>
        simp +contextual [Noted, LeavesNothing, hs, startable, pausable, resolveBaseState]

theorem Noted.leavesNothing (h : s.Noted) (hp : (s.step e).Sound) : s.LeavesNothing e := by
  cases e with
  | networkOffline =>
    intro hr
    have hrun := hp.run
    revert h hr hrun
    cases hs : s.state <;>
      simp +contextual [Noted, SyncStatusSnapshotV1.step, deriveRuntimeSyncState, pure, Except.pure,
        running, preservedOffline, atRest, hs]
  | resumed =>
    intro hs
    have hrun := hp.run
    revert hrun
    cases hn : s.networkOnline <;> cases hy : s.syncEnabled <;>
      simp [SyncStatusSnapshotV1.step, deriveRuntimeSyncState, pure, Except.pure, resolveBaseState,
        atRest, hs, hn, hy]
  | failed errorCode errorMessage =>
    intro hs
    by_contra hm
    have hf : s.state.failable := by rw [hs]; rfl
    obtain ⟨herr, hcount⟩ := @step_taken s errorCode errorMessage hf hm
    simp only [Noted, hs] at h
    have hc := hp.conflicts.1 (hcount ▸ h.2)
    rw [herr] at hc
    exact RuntimeSyncStateV1.noConfusion hc
  | _ => trivial

/-! ## Whole runs -/

/-- Nothing of a run takes effect in an unconfigured snapshot. -/
theorem Sound.unstarted (h : s.Sound) (hs : s.state = .unconfigured) : s.Unstarted := by
  have hstart : ¬ (s.capabilities.canStartSync ∨ s.capabilities.canRetry) := by
    rw [← h.start ⟨"r", by decide⟩ 0]
    simp [Enters, SyncStatusSnapshotV1.step, deriveRuntimeSyncState, pure, Except.pure, startable, hs]
  have hpause : ¬ s.capabilities.canPause := by
    rw [← h.pause]
    simp [Enters, SyncStatusSnapshotV1.step, deriveRuntimeSyncState, pure, Except.pure, pausable, hs]
  have hresume : ¬ s.capabilities.canResume := by
    rw [← h.resume]
    simp [Leaves, hs]
  have hresolve : ¬ s.capabilities.canResolveConflict := by
    rw [← h.resolve]
    simp [Leaves, hs]
  have hcount : ¬ 0 < s.conflictCount := by
    rw [h.conflicts]
    simp [hs]
  exact {
    run := h.run (by rw [hs]; rfl)
    conflicts := Nat.eq_zero_of_not_pos hcount
    start := by simpa using fun hc => hstart (.inl hc)
    retry := by simpa using fun hc => hstart (.inr hc)
    pause := by simpa using hpause
    resume := by simpa using hresume
    resolve := by simpa using hresolve }

theorem Unstarted.noted (h : s.Unstarted) (hs : s.state = .unconfigured) : s.Noted := by
  simpa [Noted, hs] using And.intro h.run h.conflicts

theorem Unstarted.flagged (h : s.Unstarted) (hs : s.state = .unconfigured) : s.Flagged := by
  constructor <;> simp [finalize, deriveCapabilities, hs, h.start, h.retry, h.pause, h.resume, h.resolve]

/-- **Version 1, exactly.** From an unconfigured snapshot, every snapshot of a run is sound if and only if the
first one is unstarted and no step leaves a run or conflicts behind. -/
theorem sound_iff (hs : s.state = .unconfigured) (es : List RuntimeSyncEvent) :
    Always step Sound s es ↔ s.Unstarted ∧ Along step LeavesNothing s es := by
  have hiff : s.Unstarted → (Always step Sound s es ↔ Along step LeavesNothing s es) := fun hu =>
    always_iff_along (I := fun t => t.Noted ∧ t.Flagged) ⟨hu.noted hs, hu.flagged hs⟩
      (fun t h => h.1.sound h.2) (fun t e h he => ⟨h.1.step he, h.2.step⟩)
      (fun t e h hp => h.1.leavesNothing hp)
  constructor
  · intro h
    have hu := h.init.unstarted hs
    exact ⟨hu, (hiff hu).1 h⟩
  · rintro ⟨hu, h⟩
    exact (hiff hu).2 h

/-- A run that fails and is retried, conflicts that are resolved, and a pause between two runs. -/
theorem retried_run_sound :
    Always step Sound (fresh true)
      [.configured true, .started ⟨"r", by decide⟩ 1, .pullCompleted 2, .failed ⟨"e", by decide⟩ none,
        .started ⟨"r", by decide⟩ 2, .pullCompleted 2, .conflictDetected 3, .networkOffline,
        .conflictResolved, .networkOnline, .paused, .resumed] :=
  (sound_iff rfl _).2 ⟨⟨rfl, rfl, rfl, rfl, rfl, rfl, rfl⟩, by decide +kernel⟩

/-- The network goes while a run pulls: the snapshot is `offline` and keeps the run. -/
theorem offline_run_kept :
    ¬ ∀ (s : SyncStatusSnapshotV1) (es : List RuntimeSyncEvent), s.state = .unconfigured → s.Unstarted →
      Always step Sound s es := by
  intro h
  have hp := (h (fresh true) [.configured true, .started ⟨"r", by decide⟩ 1, .networkOffline] rfl
    ⟨rfl, rfl, rfl, rfl, rfl, rfl, rfl⟩).last
  exact absurd (hp.run (by decide +kernel)) (by decide +kernel)

end SyncStatusSnapshotV1

end ChronoSynth
