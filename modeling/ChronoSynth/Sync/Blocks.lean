import ChronoSynth.Sync.DeriveStateV2

/-!
# Blocks of the sync state machine

Three things block a client: unresolved conflicts, an expired authorisation, an unfinished
bootstrap. A **live** snapshot — `online_synced`, `online_dirty` or `syncing` — should have none of
them, and each should be lifted by its own event only (`BlocksHold`).

Going offline forgets which block the client stood at, and coming back re-derives the state from the
pending count, so the network can lift a block. `blocksHold_iff` says that this is the only way it
happens: blocks hold along a run exactly when the network comes back to unblocked snapshots only.
-/

namespace ChronoSynth

open SyncStatusSnapshotV2

/-- The states in which the client synchronises or may start to. -/
def RuntimeSyncStateV2.Live (st : RuntimeSyncStateV2) : Prop :=
  st = .onlineSynced ∨ st = .onlineDirty ∨ st = .syncing

instance (st : RuntimeSyncStateV2) : Decidable st.Live := inferInstanceAs (Decidable (_ ∨ _))

/-- The two states a client without network is in. -/
def RuntimeSyncStateV2.Offline (st : RuntimeSyncStateV2) : Prop :=
  st = .offlineQueueing ∨ st = .offlineReadonly

instance (st : RuntimeSyncStateV2) : Decidable st.Offline := inferInstanceAs (Decidable (_ ∨ _))

/-- Nothing blocks the client: no conflict is left, the authorisation is good and the bootstrap has
been done. -/
structure SyncStatusSnapshotV2.Unblocked (s : SyncStatusSnapshotV2) : Prop where
  /-- No conflict is left. -/
  no_conflict : s.conflictCount = 0
  /-- The authorisation is good. -/
  auth_valid : s.authValid = true
  /-- The bootstrap has been done. -/
  bootstrapped : s.lastSyncedLedgerVersion ≠ none

/-- **A network flap never clears a block** along the run `es` from `s`: live snapshots are
unblocked, and each block is lifted by its own event. -/
structure BlocksHold (s : SyncStatusSnapshotV2) (es : List RuntimeSyncEventV2) : Prop where
  live : Always deriveRuntimeSyncStateV2 (fun t => t.state.Live → t.Unblocked) s es
  /-- Conflicts are left by their resolution only. -/
  conflict : Along deriveRuntimeSyncStateV2 (fun t e => 0 < t.conflictCount →
    (deriveRuntimeSyncStateV2 t e).conflictCount = 0 → e = .conflictResolved 0) s es
  /-- An expired authorisation is left by its restoration only. -/
  auth : Along deriveRuntimeSyncStateV2 (fun t e => t.authValid = false →
    (deriveRuntimeSyncStateV2 t e).authValid = true → e = .authRestored) s es
  /-- An unfinished bootstrap is left by its completion only. -/
  bootstrap : Along deriveRuntimeSyncStateV2 (fun t e => t.lastSyncedLedgerVersion = none →
    (deriveRuntimeSyncStateV2 t e).lastSyncedLedgerVersion ≠ none →
    ∃ v, e = .bootstrapCompleted v) s es

/-- The network comes back, if it does, to an unblocked client. -/
def ReconnectsUnblocked (t : SyncStatusSnapshotV2) (e : RuntimeSyncEventV2) : Prop :=
  e = .networkOnline → t.state.Offline → t.Unblocked

/-! ## The invariant -/

/-- What each state says about the blocks. The offline states say nothing: they stand for whatever
state the client was in when the network went. -/
def BlocksKnown (s : SyncStatusSnapshotV2) : Prop :=
  match s.state with
  | .initialSync => s.conflictCount = 0 ∧ s.authValid = true
  | .onlineSynced | .onlineDirty | .syncing | .degradedRemote => s.Unblocked
  | .conflictInbox => s.authValid = true ∧ s.lastSyncedLedgerVersion ≠ none
  | .reauthRequired => s.conflictCount = 0 ∧ s.lastSyncedLedgerVersion ≠ none
  | .recoveryRequired => s.conflictCount = 0 ∧ s.authValid = true
  | .offlineQueueing | .offlineReadonly | .local => True

variable {s : SyncStatusSnapshotV2} {e : RuntimeSyncEventV2} {es : List RuntimeSyncEventV2}

theorem BlocksKnown.live (h : BlocksKnown s) (hl : s.state.Live) : s.Unblocked := by
  rcases hl with hst | hst | hst <;> simpa [BlocksKnown, hst] using h

theorem ofPending_live (n : ℕ) : (RuntimeSyncStateV2.ofPending n).Live := by
  simp only [RuntimeSyncStateV2.ofPending]
  split_ifs
  · exact .inr (.inl rfl)
  · exact .inl rfl

/-- `BlocksKnown` holds in a live state when the snapshot is unblocked. -/
theorem BlocksKnown.of_live (hl : s.state.Live) (h : s.Unblocked) : BlocksKnown s := by
  rcases hl with hst | hst | hst <;> simpa [BlocksKnown, hst] using h

theorem derive_networkOnline (ho : s.state.Offline) :
    (deriveRuntimeSyncStateV2 s .networkOnline).state.Live ∧
    ((deriveRuntimeSyncStateV2 s .networkOnline).Unblocked ↔ s.Unblocked) := by
  rcases ho with hst | hst <;>
    simp only [deriveRuntimeSyncStateV2, hst, finalize_eq, if_true, reduceCtorEq, if_false]
  · exact ⟨ofPending_live _, fun h => ⟨h.1, h.2, h.3⟩, fun h => ⟨h.1, h.2, h.3⟩⟩
  · exact ⟨.inl rfl, fun h => ⟨h.1, h.2, h.3⟩, fun h => ⟨h.1, h.2, h.3⟩⟩

/-- **Step lemma**: a step keeps what the states say about the blocks, unless it is the network
coming back to a blocked client. -/
theorem BlocksKnown.derive (h : BlocksKnown s) (hC : ReconnectsUnblocked s e) :
    BlocksKnown (deriveRuntimeSyncStateV2 s e) := by
  cases e with
  | networkOnline =>
    by_cases ho : s.state.Offline
    · obtain ⟨hl, hiff⟩ := derive_networkOnline ho
      exact .of_live hl (hiff.2 (hC rfl ho))
    · have : deriveRuntimeSyncStateV2 s .networkOnline = s := by
        rw [RuntimeSyncStateV2.Offline, not_or] at ho
        simp [deriveRuntimeSyncStateV2, ho.1, ho.2]
      rwa [this]
  | conflictResolved r =>
    by_cases hc : s.state = .conflictInbox ∧ r = 0
    · simp only [BlocksKnown, hc.1] at h
      simp only [deriveRuntimeSyncStateV2, hc.1, hc.2, finalize_eq, ne_eq, not_true, or_self,
        if_false]
      exact .of_live (ofPending_live _) ⟨rfl, h.1, h.2⟩
    · have hno : s.state ≠ .conflictInbox ∨ r ≠ 0 := by rwa [← not_and_or]
      rwa [deriveRuntimeSyncStateV2, if_pos hno, finalize_eq]
  | authRestored =>
    by_cases hr : s.state = .reauthRequired
    · simp only [BlocksKnown, hr] at h
      simp only [deriveRuntimeSyncStateV2, hr, finalize_eq, ne_eq, not_true, if_false]
      exact .of_live (ofPending_live _) ⟨h.1, rfl, h.2⟩
    · rwa [deriveRuntimeSyncStateV2, if_pos hr, finalize_eq]
  | networkOffline q =>
    simp only [deriveRuntimeSyncStateV2, finalize_eq]
    split_ifs with h1 h2
    · exact h
    · trivial
    · trivial
  | bootstrapRequired => exact h
  | bootstrapCompleted v =>
    simp only [deriveRuntimeSyncStateV2, finalize_eq]
    split_ifs with hst
    · exact h
    · simp only [BlocksKnown, not_not.1 hst] at h
      exact ⟨rfl, h.2, by simp⟩
  | localChanged n =>
    simp only [deriveRuntimeSyncStateV2, finalize_eq]
    split_ifs with hst
    · exact h
    · have hu := h.live (.inl (not_not.1 fun hne => hst (.inl hne)))
      exact ⟨hu.1, hu.2, hu.3⟩
  | started r =>
    simp only [deriveRuntimeSyncStateV2, finalize_eq]
    split_ifs with hst
    · exact h
    · have hu : s.Unblocked := by
        rcases not_and_or.1 hst with hd | hd <;> simpa [BlocksKnown, not_not.1 hd] using h
      exact ⟨hu.1, hu.2, hu.3⟩
  | completed v =>
    simp only [deriveRuntimeSyncStateV2, finalize_eq]
    split_ifs with hst
    · exact h
    · have hu := h.live (.inr (.inr (not_not.1 fun hne => hst (.inl hne))))
      exact ⟨rfl, hu.2, by simp⟩
  | conflictDetected k | authExpired | remoteDegraded c | recoveryRequired c =>
    simp only [deriveRuntimeSyncStateV2, finalize_eq]
    split_ifs with hst
    · exact h
    · have hu := h.live (.inr (.inr (not_not.1 hst)))
      grind [BlocksKnown, Unblocked]
  | reset =>
    simp only [deriveRuntimeSyncStateV2, finalize_eq]
    split_ifs with hst
    · exact h
    · simp only [BlocksKnown, not_not.1 hst] at h
      exact ⟨rfl, h.2⟩

/-! ## What lifts a block -/

theorem BlocksKnown.conflict_left (h : BlocksKnown s) (hc : 0 < s.conflictCount)
    (h0 : (deriveRuntimeSyncStateV2 s e).conflictCount = 0) : e = .conflictResolved 0 := by
  cases e <;> grind [deriveRuntimeSyncStateV2, finalize_eq, BlocksKnown, Unblocked]

/-- An expired authorisation is restored by `sync.auth.restored` only, in every snapshot. -/
theorem auth_left (hc : s.authValid = false)
    (h0 : (deriveRuntimeSyncStateV2 s e).authValid = true) : e = .authRestored := by
  cases e <;> grind [deriveRuntimeSyncStateV2, finalize_eq]

theorem BlocksKnown.bootstrap_left (h : BlocksKnown s) (hc : s.lastSyncedLedgerVersion = none)
    (h0 : (deriveRuntimeSyncStateV2 s e).lastSyncedLedgerVersion ≠ none) :
    ∃ v, e = .bootstrapCompleted v := by
  cases e <;> grind [deriveRuntimeSyncStateV2, finalize_eq, BlocksKnown, Unblocked]

/-! ## Whole runs -/

/-- Live snapshots are unblocked along a run exactly when the network comes back to unblocked
clients only. -/
theorem live_unblocked_iff (h0 : BlocksKnown s) :
    Always deriveRuntimeSyncStateV2 (fun t => t.state.Live → t.Unblocked) s es ↔
      Along deriveRuntimeSyncStateV2 ReconnectsUnblocked s es := by
  refine always_iff_along h0 (fun t => BlocksKnown.live) (fun t e => BlocksKnown.derive) ?_
  rintro t e - hP rfl ho
  obtain ⟨hl, hiff⟩ := derive_networkOnline ho
  exact hiff.1 (hP hl)

theorem blocksKnown_fresh (tenantId runtimeId : NonEmptyString) (localWritable : Bool) :
    BlocksKnown (fresh tenantId runtimeId localWritable) := ⟨rfl, rfl⟩

/-- **Blocks, exactly.** From a fresh snapshot, no block is cleared but by its own event along a run
if and only if every `sync.network.online` that ends an offline phase finds the client with no
conflict left, its authorisation good and its bootstrap done. -/
theorem blocksHold_iff (tenantId runtimeId : NonEmptyString) (localWritable : Bool)
    (es : List RuntimeSyncEventV2) :
    BlocksHold (fresh tenantId runtimeId localWritable) es ↔
      Along deriveRuntimeSyncStateV2 ReconnectsUnblocked
        (fresh tenantId runtimeId localWritable) es := by
  have h0 := blocksKnown_fresh tenantId runtimeId localWritable
  refine ⟨fun h => (live_unblocked_iff h0).1 h.live, fun hC => ?_⟩
  have hI : Always deriveRuntimeSyncStateV2 BlocksKnown _ es :=
    Always.of_step h0 (fun t e => BlocksKnown.derive) hC
  have hbefore : ∀ pre e, pre ++ [e] <+: es →
      BlocksKnown (run deriveRuntimeSyncStateV2 (fresh tenantId runtimeId localWritable) pre) :=
    fun pre e hpre => hI pre ((List.prefix_append _ _).trans hpre)
  exact {
    live := (live_unblocked_iff h0).2 hC
    conflict := fun pre e hpre hc hz => (hbefore pre e hpre).conflict_left hc hz
    auth := fun pre e _ hc hz => auth_left hc hz
    bootstrap := fun pre e hpre hc hz => (hbefore pre e hpre).bootstrap_left hc hz }

/-- The network is lost before the bootstrap and comes back: the client says `online_synced` with no
ledger version ever synced. -/
theorem flap_skips_bootstrap :
    ¬ ∀ (tenantId runtimeId : NonEmptyString) (localWritable : Bool)
      (es : List RuntimeSyncEventV2),
      BlocksHold (fresh tenantId runtimeId localWritable) es := by
  intro h
  have hb := (h ⟨"t", by decide⟩ ⟨"r", by decide⟩ true [.networkOffline true, .networkOnline]).live
  exact absurd (hb.last (.inl (by decide))).bootstrapped (by decide)

end ChronoSynth
