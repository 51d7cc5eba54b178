import ChronoSynth.Sync.DeriveStateV2

/-!
# Queued writes and the sync state machine

What the snapshot owes to a local write reported by `sync.local.changed n`: a pending count of at
least `n` until the write is **discharged** — by a `sync.completed` of a run started after it, by
the bootstrap or by a reset — and never the state `online_synced` while something is pending.

The reducer keeps this promise exactly along the runs of `QueuedWritesHeard`. Three of its arms
break it elsewhere:

* `sync.network.online` in `offline_readonly` goes to `online_synced` whatever is pending, where
  the arms for `offline_queueing`, `conflict_inbox` and `reauth_required` look at the count;
* `sync.local.changed` is dropped outside `online_synced`;
* `sync.completed` empties the queue, the writes reported during the run included.
-/

namespace ChronoSynth

open SyncStatusSnapshotV2

/-- The states in which the client may write locally. -/
def RuntimeSyncStateV2.Writable (st : RuntimeSyncStateV2) : Prop :=
  st = .onlineSynced ∨ st = .onlineDirty ∨ st = .syncing ∨ st = .offlineQueueing

instance (st : RuntimeSyncStateV2) : Decidable st.Writable :=
  inferInstanceAs (Decidable (_ ∨ _))

namespace SyncStatusSnapshotV2

def startsRun (s : SyncStatusSnapshotV2) : RuntimeSyncEventV2 → Bool
  | .started _ => s.state = .onlineDirty ∨ s.state = .degradedRemote
  | _ => false

/-- The event discharges a write; `started` says whether the run in progress, if there is one, was
started after the write. -/
def discharges (started : Bool) (s : SyncStatusSnapshotV2) : RuntimeSyncEventV2 → Bool
  | .bootstrapCompleted _ => true
  | .reset => true
  | .completed _ => started && s.state = .syncing
  | _ => false

/-- What is left of a write after the events `es`: nothing once it has been discharged, and until
then whether a run has been started after it. -/
def owed (started : Bool) (s : SyncStatusSnapshotV2) : List RuntimeSyncEventV2 → Option Bool
  | [] => some started
  | e :: es =>
    if s.discharges started e then none
    else owed (started || s.startsRun e) (deriveRuntimeSyncStateV2 s e) es

end SyncStatusSnapshotV2

/-- The snapshot after a sequence of events. -/
abbrev syncRun (s : SyncStatusSnapshotV2) (es : List RuntimeSyncEventV2) : SyncStatusSnapshotV2 :=
  run deriveRuntimeSyncStateV2 s es

/-- **No queued write is reported as synced** along the run: an `online_synced` snapshot has nothing
pending, and a write reported where the client may write stays counted until it is discharged. -/
structure QueuedWritesKept (s : SyncStatusSnapshotV2) (es : List RuntimeSyncEventV2) : Prop where
  /-- Whenever the snapshot says `online_synced`, nothing is pending. -/
  synced_empty : ∀ pre, pre <+: es →
    (syncRun s pre).state = .onlineSynced → (syncRun s pre).pendingPushCount = 0
  /-- A reported write is counted as long as it is owed. -/
  write_kept : ∀ pre n mid, pre ++ .localChanged n :: mid <+: es →
    0 < n → (syncRun s pre).state.Writable →
    owed false (syncRun s (pre ++ [.localChanged n])) mid ≠ none →
    n ≤ (syncRun s (pre ++ .localChanged n :: mid)).pendingPushCount

/-- The runs along which none of the three careless arms is hit. -/
structure QueuedWritesHeard (s : SyncStatusSnapshotV2) (es : List RuntimeSyncEventV2) : Prop where
  /-- The network never comes back to `offline_readonly` while something is pending. -/
  readonly_empty : ∀ pre, pre ++ [.networkOnline] <+: es →
    (syncRun s pre).state = .offlineReadonly → (syncRun s pre).pendingPushCount = 0
  /-- A write is reported in `online_synced`, or is counted already. -/
  write_heard : ∀ pre n, pre ++ [.localChanged n] <+: es →
    0 < n → (syncRun s pre).state.Writable →
    (syncRun s pre).state = .onlineSynced ∨ n ≤ (syncRun s pre).pendingPushCount
  /-- No run completes that was started before a write still owed. -/
  run_covers : ∀ pre n mid v started, pre ++ .localChanged n :: (mid ++ [.completed v]) <+: es →
    0 < n → (syncRun s pre).state.Writable →
    owed false (syncRun s (pre ++ [.localChanged n])) mid = some started →
    (syncRun s (pre ++ .localChanged n :: mid)).Completes → started = true

/-! ## One step -/

section Step

variable {s : SyncStatusSnapshotV2} {e : RuntimeSyncEventV2} {started : Bool}

theorem owed_snoc (mid : List RuntimeSyncEventV2) :
    owed started s (mid ++ [e]) =
      (owed started s mid).bind fun st =>
        if (syncRun s mid).discharges st e then none
        else some (st || (syncRun s mid).startsRun e) := by
  induction mid generalizing s started with
  | nil => rfl
  | cons a mid ih =>
    simp only [List.cons_append, owed, run_cons]
    split_ifs with h
    · rfl
    · exact ih

/-- A step that does not discharge a write keeps a pending count that covers it, unless the write
meets a `sync.local.changed` in `online_synced` or a run that was not started for it completes. -/
theorem le_pending_derive {n : ℕ} (hle : n ≤ s.pendingPushCount)
    (hsync : s.state = .onlineSynced → s.pendingPushCount = 0)
    (hcomp : ∀ v, e = .completed v → s.Completes → started = true)
    (hd : s.discharges started e = false) :
    n ≤ (deriveRuntimeSyncStateV2 s e).pendingPushCount := by
  rcases pendingPushCount_derive (s := s) (e := e) with h | ⟨m, rfl, hst, -, -⟩ | ⟨he, -⟩
  · omega
  · have hzero := hsync hst
    omega
  · -- every event that empties the queue discharges the write
    cases e with
    | completed v =>
      have hst := hcomp v rfl he
      simp [discharges, hst, he.1] at hd
    | bootstrapCompleted v => simp [discharges] at hd
    | reset => simp [discharges] at hd
    | _ => exact he.elim

theorem pending_completed (h : s.Completes) (v : ℕ) :
    (deriveRuntimeSyncStateV2 s (.completed v)).pendingPushCount = 0 := by
  simp [deriveRuntimeSyncStateV2, h.1, h.2]

/-- A `sync.local.changed` that is heard, or says nothing new, is counted. -/
theorem le_pending_localChanged {n : ℕ} (hn : 0 < n)
    (h : s.state = .onlineSynced ∨ n ≤ s.pendingPushCount) :
    n ≤ (deriveRuntimeSyncStateV2 s (.localChanged n)).pendingPushCount := by
  rcases h with h | h
  · simp [deriveRuntimeSyncStateV2, h, hn.ne']
  · by_cases hs : s.state = .onlineSynced
    · simp [deriveRuntimeSyncStateV2, hs, hn.ne']
    · simpa [deriveRuntimeSyncStateV2, hs] using h

end Step

/-! ## Whole runs -/

section Runs

variable {s : SyncStatusSnapshotV2} {es : List RuntimeSyncEventV2}

/-- Nothing is pending in `online_synced`, along a run that never leaves `offline_readonly` for it
with writes pending. -/
theorem QueuedWritesHeard.synced_empty (h : QueuedWritesHeard s es)
    (h0 : s.state = .onlineSynced → s.pendingPushCount = 0) :
    Always deriveRuntimeSyncStateV2
      (fun t => t.state = .onlineSynced → t.pendingPushCount = 0) s es := by
  refine Always.of_step (C := fun t e => e = .networkOnline → t.state = .offlineReadonly →
    t.pendingPushCount = 0) h0 (fun t e hI hC hst => ?_) (fun pre e hpre he => ?_)
  · rcases state_derive_onlineSynced hst with ⟨hs, heq⟩ | h0 | ⟨rfl, hro⟩
    · rw [heq, hI hs]
    · exact h0
    · simpa [deriveRuntimeSyncStateV2, hro] using hC rfl hro
  · subst he
    exact h.readonly_empty pre hpre

/-- A write reported along such a run stays counted as long as it is owed: by induction on the
events after it. -/
theorem QueuedWritesHeard.write_kept (h : QueuedWritesHeard s es)
    (h0 : s.state = .onlineSynced → s.pendingPushCount = 0)
    {pre mid : List RuntimeSyncEventV2} {n : ℕ}
    (hpre : pre ++ .localChanged n :: mid <+: es) (hn : 0 < n)
    (hw : (syncRun s pre).state.Writable)
    (ho : owed false (syncRun s (pre ++ [.localChanged n])) mid ≠ none) :
    n ≤ (syncRun s (pre ++ .localChanged n :: mid)).pendingPushCount := by
  induction mid using List.reverseRecOn with
  | nil =>
    have := le_pending_localChanged hn (h.write_heard pre n hpre hn hw)
    simpa using this
  | append_singleton mid e ih =>
    have hmid : pre ++ .localChanged n :: mid <+: es := by
      refine List.IsPrefix.trans ?_ hpre
      rw [← List.cons_append, ← List.append_assoc]
      exact List.prefix_append _ _
    rw [owed_snoc] at ho
    obtain ⟨started, hst⟩ : ∃ st, owed false (syncRun s (pre ++ [.localChanged n])) mid = some st :=
      Option.ne_none_iff_exists'.1 fun hnone => ho (by rw [hnone]; rfl)
    have hle := ih hmid (by rw [hst]; simp)
    have hrun : syncRun (syncRun s (pre ++ [.localChanged n])) mid =
        syncRun s (pre ++ .localChanged n :: mid) := by simp
    rw [hst, Option.bind_some, hrun] at ho
    have hd : (syncRun s (pre ++ .localChanged n :: mid)).discharges started e = false := by
      by_contra hd
      exact ho (if_pos (by simpa only [Bool.not_eq_false] using hd))
    have hstep := le_pending_derive hle (h.synced_empty h0 _ hmid)
      (fun v he => by subst he; exact h.run_covers pre n mid v started hpre hn hw hst) hd
    simpa using hstep

/-- Where the promise is kept, none of the careless arms was hit. -/
theorem QueuedWritesKept.heard (h : QueuedWritesKept s es) : QueuedWritesHeard s es where
  readonly_empty := by
    intro pre hpre hro
    have := h.synced_empty _ hpre (by simp [deriveRuntimeSyncStateV2, hro])
    simpa [deriveRuntimeSyncStateV2, hro] using this
  write_heard := by
    intro pre n hpre hn hw
    by_cases hst : (syncRun s pre).state = .onlineSynced
    · exact .inl hst
    · have := h.write_kept pre n [] hpre hn hw (by simp [owed])
      exact .inr (by simpa [deriveRuntimeSyncStateV2, hst] using this)
  run_covers := by
    intro pre n mid v started hpre hn hw ho hc
    by_contra hs
    -- the completion would empty the queue under a write that is still owed
    have hrun : syncRun (syncRun s (pre ++ [.localChanged n])) mid =
        syncRun s (pre ++ .localChanged n :: mid) := by simp
    have hkept := h.write_kept pre n (mid ++ [.completed v]) hpre hn hw (by
      rw [owed_snoc, ho, Option.bind_some, hrun]
      simp [discharges, hs])
    rw [← List.cons_append, ← List.append_assoc, syncRun, run_snoc, pending_completed hc] at hkept
    omega

/-- **Queued writes, exactly.** From a fresh snapshot, no queued write is ever reported as synced
along a run if and only if the run hits none of the three careless arms. -/
theorem queuedWritesKept_iff (tenantId runtimeId : NonEmptyString) (localWritable : Bool)
    (es : List RuntimeSyncEventV2) :
    QueuedWritesKept (fresh tenantId runtimeId localWritable) es ↔
      QueuedWritesHeard (fresh tenantId runtimeId localWritable) es := by
  refine ⟨QueuedWritesKept.heard, fun h => ⟨?_, ?_⟩⟩
  · exact h.synced_empty (fun _ => rfl)
  · intro pre n mid hpre hn hw ho
    exact h.write_kept (fun _ => rfl) hpre hn hw ho

end Runs

/-- Two local writes, then the network is lost without queueing and comes back: the snapshot says
`online_synced` with two writes pending. -/
theorem queuedWrites_lost_by_readonly :
    ¬ ∀ (tenantId runtimeId : NonEmptyString) (localWritable : Bool)
      (es : List RuntimeSyncEventV2),
      QueuedWritesKept (fresh tenantId runtimeId localWritable) es := by
  intro h
  have hk := h ⟨"t", by decide⟩ ⟨"r", by decide⟩ true
    [.bootstrapCompleted 1, .localChanged 2, .networkOffline false, .networkOnline]
  exact absurd (hk.synced_empty _ (List.prefix_refl _) (by decide)) (by decide)

end ChronoSynth
