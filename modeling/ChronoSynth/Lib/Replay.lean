import Mathlib.Algebra.BigOperators.Group.List.Basic
import ChronoSynth.Lib.Table

/-!
# Aggregates and the log of their events

An aggregate is what its events make of a start value (`replay`). Where aggregates are kept in a table
of their own, written beside the log, `Replays` says that nothing is lost by this: every aggregate is
the replay of the log, and the log is about aggregates that are there.

There are three rules: an aggregate is created without events (`Replays.created`), it is left alone
(`Replays.kept`), or it is changed together with the log, as the new events say (`Replays.logged`).
-/

namespace ChronoSynth

section
variable {α β M : Type*} {key : α → ℕ} {apply : M → α → M} {start : M} {log new : List α} {k : ℕ}

/-- What the events of the aggregate numbered `k` make of `start`. -/
def replay (key : α → ℕ) (apply : M → α → M) (start : M) (log : List α) (k : ℕ) : M :=
  (log.filter fun e => key e = k).foldl apply start

theorem replay_append : replay key apply start (log ++ new) k =
    (new.filter fun e => key e = k).foldl apply (replay key apply start log k) := by
  rw [replay, replay, List.filter_append, List.foldl_append]

theorem replay_append_of_ne (h : ∀ e ∈ new, key e ≠ k) :
    replay key apply start (log ++ new) k = replay key apply start log k := by
  have hnil : new.filter (fun e => key e = k) = [] :=
    List.filter_eq_nil_iff.2 fun e he => by simpa using h e he
  rw [replay_append, hnil, List.foldl_nil]

theorem replay_append_of_eq (h : ∀ e ∈ new, key e = k) :
    replay key apply start (log ++ new) k = new.foldl apply (replay key apply start log k) := by
  have hall : new.filter (fun e => key e = k) = new :=
    List.filter_eq_self.2 fun e he => by simpa using h e he
  rw [replay_append, hall]

theorem replay_of_ne (h : ∀ e ∈ log, key e ≠ k) : replay key apply start log k = start := by
  rw [← List.nil_append log]
  exact replay_append_of_ne h

theorem replay_add [AddMonoid M] {delta : α → M} :
    replay key (fun m e => m + delta e) start log k =
      start + ((log.filter fun e => key e = k).map delta).sum := by
  rw [replay]
  induction log.filter (fun e => key e = k) generalizing start with
  | nil => exact (add_zero start).symm
  | cons e log ih => rw [List.foldl_cons, ih, List.map_cons, List.sum_cons, add_assoc]

/-! ## Tables of aggregates -/

variable {id : β → ℕ} {value : β → M} {table : List β} {a : β}

structure Replays (id : β → ℕ) (value : β → M) (key : α → ℕ) (apply : M → α → M) (start : M)
    (table : List β) (log : List α) : Prop where
  value_eq : ∀ a ∈ table, value a = replay key apply start log (id a)
  known : ∀ e ∈ log, ∃ a ∈ table, id a = key e

namespace Replays

variable {p : β → Prop} [DecidablePred p] {g : β → β}

theorem empty : Replays id value key apply start [] [] := ⟨nofun, nofun⟩

/-- **Creation.** -/
theorem created (h : Replays id value key apply start table log) (ha : value a = start)
    (hnew : ∀ b ∈ table, id b ≠ id a) :
    Replays id value key apply start (table ++ [a]) log := by
  refine ⟨fun b hb => ?_, fun e he => ?_⟩
  · rcases List.mem_append.1 hb with hb | hb
    · exact h.value_eq b hb
    · obtain rfl := List.mem_singleton.1 hb
      refine ha.trans (replay_of_ne fun e he hk => ?_).symm
      obtain ⟨c, hc, hid⟩ := h.known e he
      exact hnew c hc (hid.trans hk)
  · obtain ⟨b, hb, hk⟩ := h.known e he
    exact ⟨b, List.mem_append_left _ hb, hk⟩

theorem kept (h : Replays id value key apply start table log) (hid : ∀ a, id (g a) = id a)
    (hg : ∀ a, value (g a) = value a) :
    Replays id value key apply start (Table.update p g table) log := by
  refine ⟨fun b hb => ?_, fun e he => ?_⟩
  · obtain ⟨a, ha, rfl⟩ := Table.mem_update.1 hb
    split_ifs
    · rw [hg, hid]
      exact h.value_eq a ha
    · exact h.value_eq a ha
  · exact Table.exists_mem_update (h.known e he) fun a _ hk => (hid a).trans hk

/-- **Change.** The aggregate numbered `k` is updated as the new events say. -/
theorem logged (h : Replays id value key apply start table log) (hk : ∃ a ∈ table, id a = k)
    (hkey : ∀ e ∈ new, key e = k) (hid : ∀ a, id (g a) = id a)
    (hg : ∀ a, value (g a) = new.foldl apply (value a)) :
    Replays id value key apply start (Table.update (fun a => id a = k) g table) (log ++ new) := by
  refine ⟨fun b hb => ?_, fun e he => ?_⟩
  · obtain ⟨a, ha, rfl⟩ := Table.mem_update.1 hb
    split_ifs with hak
    · rw [hg, hid, hak, replay_append_of_eq hkey, h.value_eq a ha, hak]
    · rw [replay_append_of_ne fun e he hek => hak (hek.symm.trans (hkey e he))]
      exact h.value_eq a ha
  · rcases List.mem_append.1 he with he | he
    · exact Table.exists_mem_update (h.known e he) fun a _ hk => (hid a).trans hk
    · obtain ⟨a, ha, hak⟩ := hk
      refine ⟨g a, Table.mem_update_of ha hak, ?_⟩
      rw [hid, hak, hkey e he]

end Replays

end

end ChronoSynth
