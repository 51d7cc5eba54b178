import Mathlib.Algebra.Order.Ring.Int
import ChronoSynth.DataPlane.SqliteEventLedger

/-!
# Appends to the ledger

An append that fits puts its events after those of the stream, in one piece (`append_fits`); one that does not
is refused (`append_refused`). The new rows have the versions after the current one.
-/

namespace ChronoSynth.DataPlane

open EventLedgerRow (position)

variable {δ : Type} {ledger : List (EventLedgerRow δ)} {row : EventLedgerRow δ} {tenantId streamId : String}
  {drafts : List (δ × Draw)} {expectedVersion : Option ℤ}

/-- The rows of the drafts, from the version before the first of them. -/
def newRows (tenantId streamId : String) : ℤ → List (δ × Draw) → List (EventLedgerRow δ)
  | _, [] => []
  | version, (event, draw) :: drafts =>
    { eventId := draw.eventId, tenantId, streamId, streamVersion := version + 1,
      occurredAt := draw.occurredAt, event } :: newRows tenantId streamId (version + 1) drafts

/-- The ids of the drafts have not been given yet. -/
def FreshIds (ledger : List (EventLedgerRow δ)) (drafts : List (δ × Draw)) : Prop :=
  (ledger.map EventLedgerRow.eventId ++ drafts.map fun draft => draft.2.eventId).Nodup

theorem insertEvents_fresh {version : ℤ} (h : FreshIds ledger drafts) :
    insertEvents tenantId streamId drafts version ledger =
      (ledger ++ newRows tenantId streamId version drafts, version + drafts.length) := by
  induction drafts generalizing ledger version with
  | nil => simp [insertEvents, newRows]
  | cons draft drafts ih =>
    obtain ⟨event, draw⟩ := draft
    have hnew : ¬ ∃ old ∈ ledger, old.eventId = draw.eventId := by
      rintro ⟨old, hold, heq⟩
      exact (List.nodup_append.1 h).2.2 _ (List.mem_map_of_mem hold) _ List.mem_cons_self heq
    rw [insertEvents, insertEvent, if_neg hnew, ih ?_]
    · simp only [newRows, List.append_assoc, List.singleton_append, List.length_cons, Nat.cast_add, Nat.cast_one,
        Prod.mk.injEq, true_and]
      omega
    · simpa [FreshIds] using h

section
variable {version : ℤ}

theorem newRows_event : (newRows tenantId streamId version drafts).map EventLedgerRow.event = drafts.map Prod.fst := by
  induction drafts generalizing version with
  | nil => rfl
  | cons draft drafts ih => rw [newRows, List.map_cons, List.map_cons, ih]

theorem newRows_eventId : (newRows tenantId streamId version drafts).map EventLedgerRow.eventId =
    drafts.map fun draft => draft.2.eventId := by
  induction drafts generalizing version with
  | nil => rfl
  | cons draft drafts ih => rw [newRows, List.map_cons, List.map_cons, ih]

theorem newRows_position : (newRows tenantId streamId version drafts).map position =
    drafts.map fun draft => draft.2.position := by
  induction drafts generalizing version with
  | nil => rfl
  | cons draft drafts ih =>
    rw [newRows, List.map_cons, List.map_cons, ih]
    rfl

theorem newRows_version : (newRows tenantId streamId version drafts).map EventLedgerRow.streamVersion =
    (List.range drafts.length).map fun n : ℕ => version + 1 + n := by
  induction drafts generalizing version with
  | nil => rfl
  | cons draft drafts ih =>
    rw [newRows, List.map_cons, ih, List.length_cons, List.range_succ_eq_map, List.map_cons, List.map_map]
    refine congrArg₂ _ (by simp) (List.map_congr_left fun n _ => ?_)
    simp only [Function.comp_apply, Nat.cast_succ]
    omega

theorem newRows_inStream (h : row ∈ newRows tenantId streamId version drafts) : row.InStream tenantId streamId := by
  induction drafts generalizing version with
  | nil => exact (List.not_mem_nil h).elim
  | cons draft drafts ih =>
    rcases List.mem_cons.1 h with rfl | h
    · exact ⟨rfl, rfl⟩
    · exact ih h

theorem newRows_gt (h : row ∈ newRows tenantId streamId version drafts) : version < row.streamVersion := by
  have hmem : row.streamVersion ∈ (newRows tenantId streamId version drafts).map EventLedgerRow.streamVersion :=
    List.mem_map_of_mem h
  rw [newRows_version] at hmem
  obtain ⟨n, -, hn⟩ := List.mem_map.1 hmem
  omega

theorem newRows_ascending :
    (newRows tenantId streamId version drafts).Pairwise fun a b => a.streamVersion < b.streamVersion := by
  induction drafts generalizing version with
  | nil => exact List.Pairwise.nil
  | cons draft drafts ih => exact List.pairwise_cons.2 ⟨fun row hrow => newRows_gt hrow, ih⟩

theorem newRows_pos (h : (drafts.map fun draft => draft.2.position).Pairwise (· < ·)) :
    (newRows tenantId streamId version drafts).Pairwise fun a b => a.position < b.position := by
  rw [← @newRows_position δ tenantId streamId drafts version] at h
  exact List.pairwise_map.1 h

theorem exists_draft (h : row ∈ newRows tenantId streamId version drafts) :
    ∃ draft ∈ drafts, row.position = draft.2.position := by
  have hmem : row.position ∈ (newRows tenantId streamId version drafts).map position := List.mem_map_of_mem h
  rw [newRows_position] at hmem
  obtain ⟨draft, hdraft, heq⟩ := List.mem_map.1 hmem
  exact ⟨draft, hdraft, heq.symm⟩

theorem exists_newRow {draft : δ × Draw} (h : draft ∈ drafts) :
    ∃ row ∈ newRows tenantId streamId version drafts, row.position = draft.2.position := by
  have hmem : draft.2.position ∈ drafts.map fun draft => draft.2.position := List.mem_map_of_mem h
  rw [← @newRows_position δ tenantId streamId drafts version] at hmem
  exact List.mem_map.1 hmem

end

def Fits (ledger : List (EventLedgerRow δ)) (tenantId streamId : String) (expectedVersion : Option ℤ) : Prop :=
  ∀ expected, expectedVersion = some expected → expected = currentVersion ledger tenantId streamId

instance : Decidable (Fits ledger tenantId streamId expectedVersion) :=
  match expectedVersion with
  | none => isTrue fun _ h => by cases h
  | some expected => decidable_of_iff (expected = currentVersion ledger tenantId streamId) (by simp [Fits])

theorem append_fits (h : FreshIds ledger drafts) (hfits : Fits ledger tenantId streamId expectedVersion) :
    append tenantId streamId drafts expectedVersion ledger =
      (ledger ++ newRows tenantId streamId (currentVersion ledger tenantId streamId) drafts,
        .ok ⟨currentVersion ledger tenantId streamId + drafts.length, drafts.length⟩) := by
  have hnone : (expectedVersion.filter fun expected => currentVersion ledger tenantId streamId ≠ expected) = none := by
    rw [Option.filter_eq_none_iff]
    intro expected hexp
    simp [hfits expected hexp]
  simp only [append, hnone, insertEvents_fresh h]

theorem append_refused (hfits : ¬ Fits ledger tenantId streamId expectedVersion) :
    ∃ err, append tenantId streamId drafts expectedVersion ledger = (ledger, .error err) := by
  obtain ⟨expected, rfl, hne⟩ : ∃ expected, expectedVersion = some expected ∧
      expected ≠ currentVersion ledger tenantId streamId := by
    simpa [Fits] using hfits
  refine ⟨⟨streamId, expected, currentVersion ledger tenantId streamId⟩, ?_⟩
  simp [append, Option.filter, hne.symm]

theorem le_currentVersion (h : row ∈ streamRows ledger tenantId streamId) :
    row.streamVersion ≤ currentVersion ledger tenantId streamId := by
  have hmem : row.streamVersion ∈ (streamRows ledger tenantId streamId).map EventLedgerRow.streamVersion :=
    List.mem_map_of_mem h
  unfold currentVersion
  cases hmax : ((streamRows ledger tenantId streamId).map EventLedgerRow.streamVersion).max? with
  | none =>
    rw [List.max?_eq_none_iff] at hmax
    rw [hmax] at hmem
    exact (List.not_mem_nil hmem).elim
  | some version => exact (List.max?_eq_some_iff.1 hmax).2 _ hmem

end ChronoSynth.DataPlane
