import ChronoSynth.Sync.MapV1

/-!
# Runs and versions of the sync state machine

What the fields of a snapshot say of each other (`Kept`): the network is down in the offline states only, a
run in progress is noted, it is noted nowhere but in `syncing` and in the conflict inbox, the inbox is not
empty, and what was synced last has been seen. Every step keeps this.

The two versions are to grow between two resets. A completed run raises `localHighWatermark` to its version
and **sets** `lastSyncedLedgerVersion`: a run that reports an older version takes it back.
`bookkeeping_iff` says that this is the only way a version falls.
-/

namespace ChronoSynth

namespace SyncStatusSnapshotV2

/-- The fields go with each other. -/
structure Kept (s : SyncStatusSnapshotV2) : Prop extends s.Framed where
  noted : s.state = .syncing → s.activeRunId ≠ none
  seen : ∀ v, s.lastSyncedLedgerVersion = some v → v ≤ s.localHighWatermark

/-- No version falls. A client that has never synced has none. -/
structure VersionsGrow (s s' : SyncStatusSnapshotV2) : Prop where
  synced : ∀ v, s.lastSyncedLedgerVersion = some v →
    ∃ v', s'.lastSyncedLedgerVersion = some v' ∧ v ≤ v'
  watermark : s.localHighWatermark ≤ s'.localHighWatermark

/-- The event is a reset that takes effect. -/
def Resets (s : SyncStatusSnapshotV2) (e : RuntimeSyncEventV2) : Prop :=
  e = .reset ∧ s.state = .recoveryRequired

/-- **The bookkeeping of runs** along `es` from `s`: the fields go with each other, and between two resets no
version falls. -/
structure Bookkeeping (s : SyncStatusSnapshotV2) (es : List RuntimeSyncEventV2) : Prop where
  kept : Always deriveRuntimeSyncStateV2 Kept s es
  grow : Between deriveRuntimeSyncStateV2 (fun t e => ¬ t.Resets e) VersionsGrow s es

/-- A run that completes reports no version older than the one synced last. -/
def ReportsNew (s : SyncStatusSnapshotV2) : RuntimeSyncEventV2 → Prop
  | .completed ledgerVersion => s.Completes →
    ∀ v, s.lastSyncedLedgerVersion = some v → v ≤ ledgerVersion
  | _ => True

variable {s s' s'' : SyncStatusSnapshotV2} {e : RuntimeSyncEventV2} {es : List RuntimeSyncEventV2}

/-! ## One step -/

theorem VersionsGrow.refl (s : SyncStatusSnapshotV2) : s.VersionsGrow s :=
  ⟨fun v h => ⟨v, h, le_rfl⟩, le_rfl⟩

theorem VersionsGrow.trans (h : s.VersionsGrow s') (h' : s'.VersionsGrow s'') : s.VersionsGrow s'' := by
  refine ⟨fun v hv => ?_, h.watermark.trans h'.watermark⟩
  obtain ⟨v', hv', hle⟩ := h.synced v hv
  obtain ⟨v'', hv'', hle'⟩ := h'.synced v' hv'
  exact ⟨v'', hv'', hle.trans hle'⟩

theorem VersionsGrow.of_eq (hs : s'.lastSyncedLedgerVersion = s.lastSyncedLedgerVersion)
    (hw : s'.localHighWatermark = s.localHighWatermark) : s.VersionsGrow s' :=
  ⟨fun v h => ⟨v, hs.trans h, le_rfl⟩, hw.ge⟩

/-- **The versions after a step**: what they were, or what a bootstrap or a run that completes reports, or
none after a reset. -/
theorem versions_derive :
    ((deriveRuntimeSyncStateV2 s e).lastSyncedLedgerVersion = s.lastSyncedLedgerVersion ∧
      (deriveRuntimeSyncStateV2 s e).localHighWatermark = s.localHighWatermark) ∨
    (∃ v, (e = .bootstrapCompleted v ∧ s.state = .initialSync ∨ e = .completed v ∧ s.Completes) ∧
      (deriveRuntimeSyncStateV2 s e).lastSyncedLedgerVersion = some v ∧
      (deriveRuntimeSyncStateV2 s e).localHighWatermark = max s.localHighWatermark v) ∨
    (s.Resets e ∧ (deriveRuntimeSyncStateV2 s e).lastSyncedLedgerVersion = none) := by
  cases e with
  | bootstrapCompleted v =>
    by_cases h : s.state = .initialSync
    · exact .inr (.inl ⟨v, .inl ⟨rfl, h⟩, by simp [deriveRuntimeSyncStateV2, h]⟩)
    · exact .inl (by simp [deriveRuntimeSyncStateV2, h])
  | completed v =>
    by_cases h : s.Completes
    · exact .inr (.inl ⟨v, .inr ⟨rfl, h⟩, by simp [deriveRuntimeSyncStateV2, h.1, h.2]⟩)
    · exact .inl (by grind [deriveRuntimeSyncStateV2, finalize_eq, Completes])
  | reset =>
    by_cases h : s.state = .recoveryRequired
    · exact .inr (.inr ⟨⟨rfl, h⟩, by simp [deriveRuntimeSyncStateV2, h]⟩)
    · exact .inl (by simp [deriveRuntimeSyncStateV2, h])
  | bootstrapRequired => exact .inl ⟨rfl, rfl⟩
  | networkOnline =>
    left
    simp only [deriveRuntimeSyncStateV2, finalize_eq]
    split_ifs <;> exact ⟨rfl, rfl⟩
  -- the other events do not mention the versions
  | _ =>
    left
    simp only [deriveRuntimeSyncStateV2, finalize_eq]
    split_ifs <;> exact ⟨rfl, rfl⟩

theorem VersionsGrow.derive (hb : s.state = .initialSync → s.lastSyncedLedgerVersion = none)
    (hr : ¬ s.Resets e) (hn : s.ReportsNew e) : s.VersionsGrow (deriveRuntimeSyncStateV2 s e) := by
  obtain ⟨hs, hw⟩ | ⟨v, he, hs, hw⟩ | ⟨he, -⟩ := versions_derive (s := s) (e := e)
  · exact .of_eq hs hw
  · refine ⟨fun v₀ hv₀ => ⟨v, hs, ?_⟩, hw ▸ le_max_left _ _⟩
    obtain ⟨rfl, hi⟩ | ⟨rfl, hc⟩ := he
    · rw [hb hi] at hv₀
      cases hv₀
    · exact hn hc v₀ hv₀
  · exact absurd he hr

theorem VersionsGrow.reportsNew (hg : ¬ s.Resets e → s.VersionsGrow (deriveRuntimeSyncStateV2 s e)) :
    s.ReportsNew e := by
  cases e with
  | completed v =>
    intro hc v₀ hv₀
    obtain ⟨v', hv', hle⟩ := (hg (fun hr => by cases hr.1)).synced v₀ hv₀
    simp only [deriveRuntimeSyncStateV2, finalize_eq, hc.1, hc.2, ne_eq, not_true, gt_iff_lt,
      lt_irrefl, or_self, if_false, Option.some.injEq] at hv'
    rwa [hv']
  | _ => trivial

/-! ## Whole runs -/

/-- The invariant: the fields go with each other, and nothing is synced before the bootstrap. -/
structure Booked (s : SyncStatusSnapshotV2) : Prop extends s.Kept where
  unsynced : s.state = .initialSync → s.lastSyncedLedgerVersion = none

theorem booked_fresh (tenantId runtimeId : NonEmptyString) (localWritable : Bool) :
    (fresh tenantId runtimeId localWritable).Booked where
  toFramed := (@always_framed [] tenantId runtimeId localWritable).init
  noted := by simp [fresh]
  seen := by simp [fresh]
  unsynced := by simp [fresh]

/-- **Step lemma.** -/
theorem Booked.derive (h : s.Booked) : (deriveRuntimeSyncStateV2 s e).Booked := by
  refine { toFramed := h.toFramed.derive, noted := ?_, seen := ?_, unsynced := ?_ }
  · have := h.noted
    cases e <;> grind [deriveRuntimeSyncStateV2, finalize_eq, RuntimeSyncStateV2.ofPending]
  · obtain ⟨hs, hw⟩ | ⟨v, -, hs, hw⟩ | ⟨-, hs⟩ := versions_derive (s := s) (e := e)
    · rw [hs, hw]
      exact h.seen
    · rw [hs, hw]
      rintro _ ⟨⟩
      exact le_max_right _ _
    · rw [hs]
      rintro _ ⟨⟩
  · have := h.unsynced
    cases e <;> grind [deriveRuntimeSyncStateV2, finalize_eq, RuntimeSyncStateV2.ofPending]

/-- **Version 2, exactly.** From a fresh snapshot, the bookkeeping of runs is kept along a run if and only if
every run that completes reports a version no older than the one synced last. -/
theorem bookkeeping_iff (tenantId runtimeId : NonEmptyString) (localWritable : Bool)
    (es : List RuntimeSyncEventV2) :
    Bookkeeping (fresh tenantId runtimeId localWritable) es ↔
      Along deriveRuntimeSyncStateV2 ReportsNew (fresh tenantId runtimeId localWritable) es := by
  have hI : Always deriveRuntimeSyncStateV2 Booked (fresh tenantId runtimeId localWritable) es :=
    Always.of_inductive (booked_fresh tenantId runtimeId localWritable) fun t e h => h.derive
  have hgrow : Between deriveRuntimeSyncStateV2 (fun t e => ¬ t.Resets e) VersionsGrow
      (fresh tenantId runtimeId localWritable) es ↔ _ :=
    between_iff_along VersionsGrow.refl (fun t t' t'' => VersionsGrow.trans)
  have hiff := Along.congr (C := fun t e => ¬ t.Resets e → t.VersionsGrow (deriveRuntimeSyncStateV2 t e))
    (D := ReportsNew) hI fun t e h => ⟨VersionsGrow.reportsNew, fun hn hr => .derive h.unsynced hr hn⟩
  exact ⟨fun h => hiff.1 (hgrow.1 h.grow),
    fun h => ⟨hI.mono fun t ht => ht.toKept, hgrow.2 (hiff.2 h)⟩⟩

/-- Two runs complete, the second with the older version. -/
theorem old_version_synced :
    ¬ ∀ (tenantId runtimeId : NonEmptyString) (localWritable : Bool) (es : List RuntimeSyncEventV2),
      Bookkeeping (fresh tenantId runtimeId localWritable) es := by
  intro h
  have hg := (h ⟨"t", by decide⟩ ⟨"r", by decide⟩ true [.bootstrapCompleted 5, .localChanged 1,
    .started ⟨"run", by decide⟩, .completed 3]).grow
  have hv := (hg [.bootstrapCompleted 5] [.localChanged 1, .started ⟨"run", by decide⟩, .completed 3]
    (List.prefix_refl _) (by
      intro pre e hpre hr
      obtain rfl := hr.1
      simpa using hpre.sublist.subset (List.mem_append_right pre (List.mem_singleton_self _)))).synced 5
    (by decide)
  obtain ⟨v, hv, hle⟩ := hv
  obtain rfl : v = 3 := Option.some.inj (hv.symm.trans (by decide))
  exact absurd hle (by decide)

end SyncStatusSnapshotV2

end ChronoSynth
